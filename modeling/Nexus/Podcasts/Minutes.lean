/-
Transcription minutes are conserved in every run in which no reservation is
written over another: a day's reserved minutes are those the jobs hold, its
used minutes those committed, and each reservation admitted is released or
committed once before the next.
-/
import Nexus.Podcasts.Transcription
import Nexus.Lib.Run
import Nexus.Lib.ExceptFacts

namespace Nexus.Podcasts
open Relational Transition ExceptFacts

/-! ## Transactions -/

/-- A request under way: what it has read so far. -/
structure TranscriptTx where
  viewerId : Uuid
  reason : TranscriptRequestReason
  dryRun : Bool
  /-- Many episodes by a query, or one. -/
  query : Bool
  observations : List Observation
  deriving DecidableEq, Repr

structure TranscriptionWorld where
  db : TranscriptionDb
  txs : Uuid → Option TranscriptTx

inductive TranscriptionEvent
  | start (tx viewerId : Uuid) (reason : TranscriptRequestReason) (dryRun query : Bool)
  | read (tx mediaId : Uuid) (entitlements : Entitlements) (semanticIndexRequiresRepair : Bool)
  | commit (tx : Uuid) (usageDate : Date) (enqueued : Uuid → Bool)
  | abandon (tx : Uuid)
  | prepare (mediaId requestedByUserId : Uuid) (reason : TranscriptRequestReason) (entitlements : Entitlements) (usageDate : Date)
  | running (mediaId : Uuid)
  | publisherPublished (mediaId : Uuid)
  | completed (mediaId : Uuid) (diagnosticErrorCode : Option ApiErrorCode)
  | failed (mediaId : Uuid) (errorCode : ApiErrorCode)
  | indexed (mediaId : Uuid) (transcriptState : TranscriptStatus) (coverage : TranscriptCoverage) (semanticStatus : SemanticStatus)

/-- What a transaction leaves when it commits: a query's writes go together,
and a single request reads one episode. -/
def TranscriptTx.commit (t : TranscriptTx) (db : TranscriptionDb) (usageDate : Date) (enqueued : Uuid → Bool) : TranscriptionDb :=
  if t.query then
    match db.requestQueryTranscripts t.viewerId t.reason t.dryRun t.observations usageDate enqueued with
    | .ok db => db
    | .error _ => db
  else match t.observations with
    | [o] => (db.requestMediaTranscript t.viewerId t.reason t.dryRun true o usageDate (enqueued o.mediaId)).1
    | _ => db

namespace TranscriptionWorld

def setTx (s : TranscriptionWorld) (tx : Uuid) (t : Option TranscriptTx) : TranscriptionWorld :=
  { s with txs := fun k => if k = tx then t else s.txs k }

/-- One step: a query names an episode once. -/
def next (s : TranscriptionWorld) : TranscriptionEvent → Option TranscriptionWorld
  | .start tx viewerId reason dryRun query =>
    if (s.txs tx).isSome then .none else .some (s.setTx tx (.some ⟨viewerId, reason, dryRun, query, []⟩))
  | .read tx mediaId entitlements repair =>
    match s.txs tx with
    | .none => .none
    | .some t =>
      if t.observations.any fun o => o.mediaId == mediaId then .none
      else
        let o := s.db.observe t.viewerId mediaId entitlements repair
        .some (s.setTx tx (.some { t with observations := t.observations ++ [o] }))
  | .commit tx usageDate enqueued =>
    (s.txs tx).map fun t => { s.setTx tx .none with db := t.commit s.db usageDate enqueued }
  | .abandon tx => .some (s.setTx tx .none)
  | .prepare mediaId userId reason entitlements usageDate =>
    match s.db.preparePodcastTranscription mediaId userId reason entitlements usageDate with
    | .ok db => .some { s with db }
    | .error _ => .some s
  | .running mediaId => .some { s with db := s.db.publishRunningState mediaId }
  | .publisherPublished mediaId => .some { s with db := s.db.publishPublisherTranscript mediaId }
  | .completed mediaId code => .some { s with db := s.db.publishTranscript mediaId code }
  | .failed mediaId code => .some { s with db := s.db.markPodcastTranscriptionFailure mediaId code }
  | .indexed mediaId state coverage semantic =>
    .some { s with db := s.db.setMediaTranscriptState mediaId state coverage (.some semantic) }

end TranscriptionWorld

/-- No job, no usage and no transaction yet. -/
def transcriptionSystem : System TranscriptionWorld TranscriptionEvent :=
  .ofFun (fun s => s.db.jobs = .empty ∧ s.db.usage = .empty ∧ s.db.ledger = [] ∧ s.txs = fun _ => .none)
    TranscriptionWorld.next

/-! ## Conservation -/

def LedgerEntry.reservation : LedgerEntry → Reservation
  | .admitted r | .released r | .committed r => r

/-- The minutes of a day that were committed. -/
def committedMinutes (ledger : List LedgerEntry) (userId : Uuid) (usageDate : Date) : Nat :=
  (ledger.map fun e => match e with
    | .committed r => if r.userId = .some userId ∧ r.usageDate = usageDate then r.minutes else 0
    | _ => 0).sum

/-- One entry after those that left an episode with this reservation: it is
admitted when there is none, and released or committed when it is the one. -/
def settle : Option Reservation → LedgerEntry → Option (Option Reservation)
  | .none, .admitted r => .some (.some r)
  | .some r, .released r' | .some r, .committed r' => if r = r' then .some .none else .none
  | _, _ => .none

/-- The reservation of an episode that is still to be settled, when every other
one was settled once. -/
def outstanding (ledger : List LedgerEntry) (mediaId : Uuid) : Option (Option Reservation) :=
  (ledger.filter fun e => e.reservation.mediaId == mediaId).foldlM settle .none

namespace TranscriptionDb

variable (db : TranscriptionDb)

def minutesReserved (userId : Uuid) (usageDate : Date) : Nat :=
  (db.usage.find? (userId, usageDate)).elim 0 UsageDaily.minutesReserved

def minutesUsed (userId : Uuid) (usageDate : Date) : Nat :=
  (db.usage.find? (userId, usageDate)).elim 0 UsageDaily.minutesUsed

/-- The job's reservation is of this user and day. -/
def holdsMinutes (userId : Uuid) (usageDate : Date) (j : TranscriptionJob) : Bool :=
  j.requestedByUserId == .some userId && j.reservationUsageDate == .some usageDate

structure Conserved : Prop where
  reserved : ∀ userId usageDate, db.minutesReserved userId usageDate =
    db.jobs.sumBy (holdsMinutes userId usageDate) TranscriptionJob.reservedMinutes
  used : ∀ userId usageDate, db.minutesUsed userId usageDate = committedMinutes db.ledger userId usageDate
  settled : ∀ mediaId, outstanding db.ledger mediaId = .some (db.liveReservation mediaId)

end TranscriptionDb

/-- No reservation is written over: the jobs of the episodes that a commit or a
preparation reserves for hold none. -/
def TranscriptionEvent.KeepsReservations (s : TranscriptionWorld) : TranscriptionEvent → Prop
  | .commit tx _ _ => ∀ t ∈ s.txs tx, t.dryRun = false →
      ∀ o ∈ t.observations, o.reserves = true → s.db.liveReservation o.mediaId = .none
  | .prepare mediaId .. => s.db.liveReservation mediaId = .none
  | _ => True

instance (s : TranscriptionWorld) : (ev : TranscriptionEvent) → Decidable (ev.KeepsReservations s)
  | .commit tx _ _ => inferInstanceAs (Decidable (∀ t ∈ s.txs tx, t.dryRun = false →
      ∀ o ∈ t.observations, o.reserves = true → s.db.liveReservation o.mediaId = .none))
  | .prepare mediaId .. => inferInstanceAs (Decidable (s.db.liveReservation mediaId = .none))
  | .start .. | .read .. | .abandon .. | .running .. | .publisherPublished .. | .completed .. | .failed .. | .indexed .. =>
    inferInstanceAs (Decidable True)

/-! ## The writes -/

namespace TranscriptionDb

variable {db db' : TranscriptionDb} {m : Uuid}

/-- The minutes a job's row counts for a user and a day. -/
def minutesOf (u : Uuid) (d : Date) (j : Option TranscriptionJob) : Nat :=
  j.elim 0 fun j => if holdsMinutes u d j then j.reservedMinutes else 0

theorem Conserved.congr (h : db.Conserved) (hj : db'.jobs = db.jobs) (hu : db'.usage = db.usage) (hl : db'.ledger = db.ledger) :
    db'.Conserved := by
  refine ⟨fun u d => ?_, fun u d => ?_, fun m => ?_⟩
  · simpa only [minutesReserved, hu, hj] using h.reserved u d
  · simpa only [minutesUsed, hu, hl] using h.used u d
  · simpa only [liveReservation, hl, hj] using h.settled m

theorem liveReservation_congr (hj : db'.jobs = db.jobs) : db'.liveReservation m = db.liveReservation m := by
  simp only [liveReservation, hj]

theorem setMediaTranscriptState_jobs (db : TranscriptionDb) (m : Uuid) (s c sem) :
    (db.setMediaTranscriptState m s c sem).jobs = db.jobs := rfl

theorem Conserved.setState (h : db.Conserved) (m : Uuid) (s c sem) : (db.setMediaTranscriptState m s c sem).Conserved :=
  h.congr rfl rfl rfl

theorem ensureMediaTranscriptStateRow_same (m : Uuid) : (db.ensureMediaTranscriptStateRow m).jobs = db.jobs ∧
    (db.ensureMediaTranscriptStateRow m).usage = db.usage ∧ (db.ensureMediaTranscriptStateRow m).ledger = db.ledger := by
  unfold ensureMediaTranscriptStateRow
  split <;> exact ⟨rfl, rfl, rfl⟩

theorem Conserved.ensureState (h : db.Conserved) (m : Uuid) : (db.ensureMediaTranscriptStateRow m).Conserved :=
  h.congr (ensureMediaTranscriptStateRow_same m).1 (ensureMediaTranscriptStateRow_same m).2.1
    (ensureMediaTranscriptStateRow_same m).2.2

theorem outstanding_append (ledger : List LedgerEntry) (e : LedgerEntry) (m : Uuid) :
    outstanding (ledger ++ [e]) m =
      if e.reservation.mediaId = m then (outstanding ledger m).bind fun r => settle r e else outstanding ledger m := by
  simp only [outstanding, List.filter_append, List.foldlM_append]
  by_cases hm : e.reservation.mediaId = m
  · simp [hm]
  · simp [hm]

theorem committedMinutes_append (ledger : List LedgerEntry) (e : LedgerEntry) (u : Uuid) (d : Date) :
    committedMinutes (ledger ++ [e]) u d = committedMinutes ledger u d + committedMinutes [e] u d := by
  simp [committedMinutes]

/-! ### Usage rows -/

theorem minutesReserved_put (row : UsageDaily) (u : Uuid) (d : Date) :
    ({ db with usage := db.usage.put row } : TranscriptionDb).minutesReserved u d =
      if row.key = (u, d) then row.minutesReserved else db.minutesReserved u d := by
  simp only [minutesReserved, Table.find?_put]
  split <;> rfl

theorem minutesUsed_put (row : UsageDaily) (u : Uuid) (d : Date) :
    ({ db with usage := db.usage.put row } : TranscriptionDb).minutesUsed u d =
      if row.key = (u, d) then row.minutesUsed else db.minutesUsed u d := by
  simp only [minutesUsed, Table.find?_put]
  split <;> rfl

theorem ensureUsageDailyRow_spec (db : TranscriptionDb) (u : Uuid) (d : Date) :
    (db.ensureUsageDailyRow u d).jobs = db.jobs ∧ (db.ensureUsageDailyRow u d).ledger = db.ledger ∧
      (∀ u' d', (db.ensureUsageDailyRow u d).minutesReserved u' d' = db.minutesReserved u' d') ∧
      (∀ u' d', (db.ensureUsageDailyRow u d).minutesUsed u' d' = db.minutesUsed u' d') ∧
      ((db.ensureUsageDailyRow u d).usage.find? (u, d)).isSome = true := by
  unfold ensureUsageDailyRow
  cases hfind : db.usage.find? (u, d) with
  | some row => simp [hfind]
  | none =>
    refine ⟨rfl, rfl, fun u' d' => ?_, fun u' d' => ?_, ?_⟩
    · simp only [Option.isSome_none, Bool.false_eq_true, if_false, minutesReserved_put]
      by_cases hk : (u, d) = (u', d')
      · cases hk
        simp [UsageDaily.key, minutesReserved, hfind]
      · exact if_neg hk
    · simp only [Option.isSome_none, Bool.false_eq_true, if_false, minutesUsed_put]
      by_cases hk : (u, d) = (u', d')
      · cases hk
        simp [UsageDaily.key, minutesUsed, hfind]
      · exact if_neg hk
    · simp [Table.find?_put, UsageDaily.key]

/-- A reservation adds its minutes to its day, and changes nothing else that
counts. -/
theorem reserveUsageMinutes_spec {u : Uuid} {d : Date} {ent : Entitlements} {n : Nat}
    (h : db.reserveUsageMinutesOrRaise u d ent n = .ok db') :
    db'.jobs = db.jobs ∧ db'.ledger = db.ledger ∧ (∀ u' d', db'.minutesUsed u' d' = db.minutesUsed u' d') ∧
      ∀ u' d', db'.minutesReserved u' d' = db.minutesReserved u' d' + if (u, d) = (u', d') then n else 0 := by
  unfold reserveUsageMinutesOrRaise at h
  split at h
  · obtain rfl := Except.ok.inj h
    next hn => exact ⟨rfl, rfl, fun _ _ => rfl, by simp [hn]⟩
  · obtain ⟨hjobs, hledger, hres, hused, -⟩ := ensureUsageDailyRow_spec db u d
    dsimp only at h
    cases hfind : (db.ensureUsageDailyRow u d).usage.find? (u, d) with
    | none => simp [hfind] at h
    | some row =>
      obtain ⟨-, hkey⟩ := Table.find?_eq_some.1 hfind
      simp only [hfind] at h
      split at h
      · obtain rfl := Except.ok.inj h
        refine ⟨hjobs, hledger, fun u' d' => ?_, fun u' d' => ?_⟩
        · rw [minutesUsed_put, ← hused]
          split
          next hk =>
            have hrow : row.key = (u', d') := hk
            simp only [minutesUsed, ← hrow, hkey, hfind, Option.elim_some]
          next => rfl
        · rw [minutesReserved_put, ← hres]
          have hk' : UsageDaily.key { row with minutesReserved := row.minutesReserved + n } = (u, d) := hkey
          rw [hk']
          split
          next hk =>
            simp only [minutesReserved, ← hk, hfind, Option.elim_some]
          next => rfl
      · cases h

/-! ### Job rows -/

theorem liveReservation_put {j : TranscriptionJob} (hj : db'.jobs = db.jobs.put j) (m : Uuid) :
    db'.liveReservation m = if j.mediaId = m then reservation j else db.liveReservation m := by
  simp only [liveReservation, hj, Table.find?_put]
  split <;> rfl

theorem minutesOf_eq_zero {m : Uuid} (h : db.liveReservation m = .none) (u : Uuid) (d : Date) :
    minutesOf u d (db.jobs.find? m) = 0 := by
  simp only [liveReservation] at h
  cases hfind : db.jobs.find? m with
  | none => rfl
  | some j =>
    simp only [hfind, Option.bind_some, reservation] at h
    simp only [minutesOf, Option.elim_some, holdsMinutes]
    by_cases h0 : j.reservedMinutes = 0
    · simp [h0]
    · simp only [h0, if_false, Option.map_eq_none_iff] at h
      simp [h]

theorem Conserved.write {j : TranscriptionJob} (h : db.Conserved) (hj : db'.jobs = db.jobs.put j)
    (hres : ∀ u d, db'.minutesReserved u d + minutesOf u d (db.jobs.find? j.mediaId) =
      db.minutesReserved u d + minutesOf u d (.some j))
    (hused : ∀ u d, db'.minutesUsed u d = committedMinutes db'.ledger u d)
    (hset : ∀ m, outstanding db'.ledger m = .some (db'.liveReservation m)) : db'.Conserved := by
  refine ⟨fun u d => ?_, hused, hset⟩
  have hsum := Table.sumBy_put db.jobs j (holdsMinutes u d) TranscriptionJob.reservedMinutes
  have hwas := h.reserved u d
  have hnow := hres u d
  simp only [minutesOf, Option.elim_some] at hnow
  rw [hj]
  omega

theorem Conserved.updateJob {f : TranscriptionJob → TranscriptionJob} (h : db.Conserved) (m : Uuid)
    (hf : ∀ j, (f j).mediaId = j.mediaId ∧ (f j).requestedByUserId = j.requestedByUserId ∧
      (f j).reservedMinutes = j.reservedMinutes ∧ (f j).reservationUsageDate = j.reservationUsageDate) :
    (db.updateJob m f).Conserved := by
  unfold TranscriptionDb.updateJob
  cases hfind : db.jobs.find? m with
  | none => exact h
  | some j =>
    obtain ⟨hid, huser, hmin, hdate⟩ := hf j
    have hkey := (Table.find?_eq_some.1 hfind).2
    have hsame : reservation (f j) = reservation j := by simp only [reservation, hid, huser, hmin, hdate]
    refine h.write (j := f j) rfl (fun u d => ?_) h.used fun m' => ?_
    · simp only [hid, hkey, hfind, minutesOf, Option.elim_some, holdsMinutes, huser, hmin, hdate]
      rfl
    · rw [liveReservation_put rfl, hsame, hid, hkey]
      rw [show outstanding _ m' = outstanding db.ledger m' from rfl, h.settled m']
      split
      next hm => subst hm; simp [liveReservation, hfind]
      next => rfl

/-! ### Settling a reservation -/

theorem claimJobReservation_spec (db : TranscriptionDb) (m : Uuid) :
    (db.liveReservation m = .none ∧ db.claimJobReservation m = (.none, db)) ∨
      ∃ j r, db.jobs.find? m = .some j ∧ reservation j = .some r ∧
        db.claimJobReservation m =
          (.some r, { db with jobs := db.jobs.put { j with reservedMinutes := 0, reservationUsageDate := .none } }) := by
  unfold claimJobReservation liveReservation
  cases hfind : db.jobs.find? m with
  | none => exact .inl ⟨rfl, rfl⟩
  | some j =>
    cases hr : reservation j with
    | none => exact .inl ⟨by simp [hr], by simp [hr]⟩
    | some r => exact .inr ⟨j, r, rfl, hr, by simp [hr]⟩

theorem reservation_eq_some {j : TranscriptionJob} {r : Reservation} (h : reservation j = .some r) :
    r.mediaId = j.mediaId ∧ r.userId = j.requestedByUserId ∧ j.reservationUsageDate = .some r.usageDate ∧
      r.minutes = j.reservedMinutes := by
  unfold reservation at h
  split at h
  · cases h
  · obtain ⟨date, hdate, rfl⟩ := Option.map_eq_some_iff.1 h
    exact ⟨rfl, rfl, hdate, rfl⟩

theorem minutesOf_of_reservation {j : TranscriptionJob} {r : Reservation} (h : reservation j = .some r) (u : Uuid) (d : Date) :
    minutesOf u d (.some j) = if r.userId = .some u ∧ r.usageDate = d then r.minutes else 0 := by
  obtain ⟨-, huser, hdate, hmin⟩ := reservation_eq_some h
  simp only [minutesOf, Option.elim_some, holdsMinutes, huser, hdate, hmin, Bool.and_eq_true, beq_iff_eq,
    Option.some.injEq]

/-- The claimed job, cleared, with its settlement recorded: what is left is to
take its minutes off its day. -/
theorem Conserved.settled_of_claim {j : TranscriptionJob} {r : Reservation} {e : LedgerEntry} (h : db.Conserved)
    (hfind : db.jobs.find? m = .some j) (hr : reservation j = .some r) (he : e = .released r ∨ e = .committed r)
    (hj : db'.jobs = db.jobs.put { j with reservedMinutes := 0, reservationUsageDate := .none })
    (hl : db'.ledger = db.ledger ++ [e]) (k : Uuid) : outstanding db'.ledger k = .some (db'.liveReservation k) := by
  have hkey := (Table.find?_eq_some.1 hfind).2
  have hid := (reservation_eq_some hr).1
  have hmedia : e.reservation.mediaId = m := by
    rcases he with rfl | rfl <;> exact hid.trans hkey
  rw [hl, outstanding_append, liveReservation_put hj, hmedia, h.settled k]
  simp only [hkey]
  by_cases hk : m = k
  · subst hk
    have hlive : db.liveReservation m = .some r := by simp only [liveReservation, hfind, Option.bind_some, hr]
    rw [if_pos rfl, if_pos rfl, hlive]
    rcases he with rfl | rfl <;> simp [settle, reservation]
  · rw [if_neg hk, if_neg hk]

theorem Conserved.minutes_le {j : TranscriptionJob} {r : Reservation} {u : Uuid} (h : db.Conserved)
    (hfind : db.jobs.find? m = .some j) (hr : reservation j = .some r) (hu : r.userId = .some u) :
    r.minutes ≤ db.minutesReserved u r.usageDate := by
  obtain ⟨-, huser, hdate, hmin⟩ := reservation_eq_some hr
  rw [h.reserved, hmin]
  refine Table.le_sumBy (Table.find?_eq_some.1 hfind).1 ?_
  simp [holdsMinutes, ← huser, hu, hdate]

theorem committedMinutes_released (r : Reservation) (u : Uuid) (d : Date) : committedMinutes [.released r] u d = 0 := rfl

theorem committedMinutes_committed (r : Reservation) (u : Uuid) (d : Date) :
    committedMinutes [.committed r] u d = if r.userId = .some u ∧ r.usageDate = d then r.minutes else 0 := rfl

theorem minutesReserved_settle {r : Reservation} {row : UsageDaily} {u₀ u : Uuid} {d : Date} (used : Nat)
    (hu : r.userId = .some u₀) (hrow : db.usage.find? (u₀, r.usageDate) = .some row)
    (hle : r.minutes ≤ db.minutesReserved u₀ r.usageDate) :
    ({ db with usage := db.usage.put ⟨row.userId, row.usageDate, used, row.minutesReserved - r.minutes⟩ } :
        TranscriptionDb).minutesReserved u d + (if r.userId = .some u ∧ r.usageDate = d then r.minutes else 0) =
      db.minutesReserved u d := by
  have hkey : UsageDaily.key ⟨row.userId, row.usageDate, used, row.minutesReserved - r.minutes⟩ = (u₀, r.usageDate) :=
    (Table.find?_eq_some.1 hrow).2
  have hhas : db.minutesReserved u₀ r.usageDate = row.minutesReserved := by
    simp only [minutesReserved, hrow, Option.elim_some]
  rw [minutesReserved_put, hkey]
  by_cases hk : u₀ = u ∧ r.usageDate = d
  · obtain ⟨rfl, rfl⟩ := hk
    simp only [hu, and_self, if_true]
    omega
  · have hpair : ¬ (u₀, r.usageDate) = (u, d) := fun heq => hk (Prod.mk.inj heq)
    simp only [hu, Option.some.injEq, hk, hpair, if_false, Nat.add_zero]

theorem minutesUsed_settle {row : UsageDaily} {u₀ u : Uuid} {d₀ d : Date} (used reserved : Nat)
    (hrow : db.usage.find? (u₀, d₀) = .some row) :
    ({ db with usage := db.usage.put ⟨row.userId, row.usageDate, row.minutesUsed + used, reserved⟩ } :
        TranscriptionDb).minutesUsed u d = db.minutesUsed u d + if u₀ = u ∧ d₀ = d then used else 0 := by
  have hkey : UsageDaily.key ⟨row.userId, row.usageDate, row.minutesUsed + used, reserved⟩ = (u₀, d₀) :=
    (Table.find?_eq_some.1 hrow).2
  rw [minutesUsed_put, hkey]
  by_cases hk : u₀ = u ∧ d₀ = d
  · obtain ⟨rfl, rfl⟩ := hk
    simp only [and_self, if_true, minutesUsed, hrow, Option.elim_some]
  · have hpair : ¬ (u₀, d₀) = (u, d) := fun heq => hk (Prod.mk.inj heq)
    simp only [hk, hpair, if_false, Nat.add_zero]

/-- A release keeps minutes conserved, and leaves the job without a
reservation. -/
theorem Conserved.release (h : db.Conserved) (m : Uuid) : (db.releaseReservedUsageForMedia m).Conserved := by
  unfold releaseReservedUsageForMedia
  rcases claimJobReservation_spec db m with ⟨-, hclaim⟩ | ⟨j, r, hfind, hr, hclaim⟩
  · rw [hclaim]
    exact h
  · rw [hclaim]
    have hkey := (Table.find?_eq_some.1 hfind).2
    have hset (db' : TranscriptionDb) (hj : db'.jobs = db.jobs.put { j with reservedMinutes := 0, reservationUsageDate := .none })
        (hl : db'.ledger = db.ledger ++ [.released r]) := h.settled_of_claim hfind hr (.inl rfl) hj hl
    have hcleared (u d) : minutesOf u d (.some { j with reservedMinutes := 0, reservationUsageDate := .none }) = 0 := by
      simp [minutesOf, holdsMinutes]
    dsimp only [record]
    cases hu : r.userId with
    | none =>
      simp only [Option.bind_none]
      refine h.write rfl (fun u d => ?_) (fun u d => ?_) (hset _ rfl rfl)
      · rw [hcleared, hkey, hfind, minutesOf_of_reservation hr, hu]
        simp only [reduceCtorEq, false_and, if_false]
        rfl
      · rw [committedMinutes_append, committedMinutes_released]
        exact h.used u d
    | some u₀ =>
      have hle := h.minutes_le hfind hr hu
      simp only [Option.bind_some]
      cases hrow : db.usage.find? (u₀, r.usageDate) with
      | none =>
        refine h.write rfl (fun u d => ?_) (fun u d => ?_) (hset _ rfl rfl)
        · have hzero : r.minutes = 0 := by simpa [minutesReserved, hrow] using hle
          rw [hcleared, hkey, hfind, minutesOf_of_reservation hr, hzero, ite_self]
          rfl
        · rw [committedMinutes_append, committedMinutes_released]
          exact h.used u d
      | some row =>
        refine h.write rfl (fun u d => ?_) (fun u d => ?_) (hset _ rfl rfl)
        · rw [hcleared, hkey, hfind, minutesOf_of_reservation hr]
          exact minutesReserved_settle _ hu hrow hle
        · rw [committedMinutes_append, committedMinutes_released]
          have hsame := minutesUsed_settle (u := u) (d := d) 0 (row.minutesReserved - r.minutes) hrow
          rw [ite_self, Nat.add_zero] at hsame
          exact hsame.trans (h.used u d)

theorem Conserved.commit (h : db.Conserved) (m : Uuid) : (db.commitReservedUsageForMedia m).Conserved := by
  unfold commitReservedUsageForMedia
  rcases claimJobReservation_spec db m with ⟨-, hclaim⟩ | ⟨j, r, hfind, hr, hclaim⟩
  · rw [hclaim]
    exact h
  · rw [hclaim]
    have hkey := (Table.find?_eq_some.1 hfind).2
    have hset (db' : TranscriptionDb) (hj : db'.jobs = db.jobs.put { j with reservedMinutes := 0, reservationUsageDate := .none })
        (hl : db'.ledger = db.ledger ++ [.committed r]) := h.settled_of_claim hfind hr (.inr rfl) hj hl
    have hcleared (u d) : minutesOf u d (.some { j with reservedMinutes := 0, reservationUsageDate := .none }) = 0 := by
      simp [minutesOf, holdsMinutes]
    dsimp only [record]
    cases hu : r.userId with
    | none =>
      refine h.write rfl (fun u d => ?_) (fun u d => ?_) (hset _ rfl rfl)
      · rw [hcleared, hkey, hfind, minutesOf_of_reservation hr, hu]
        simp only [reduceCtorEq, false_and, if_false]
        rfl
      · rw [committedMinutes_append, committedMinutes_committed, hu]
        simp only [reduceCtorEq, false_and, if_false, Nat.add_zero]
        exact h.used u d
    | some u₀ =>
      dsimp only
      generalize hclear : ({ db with
        jobs := db.jobs.put { j with reservedMinutes := 0, reservationUsageDate := .none }
        ledger := db.ledger ++ [.committed r] } : TranscriptionDb) = cleared
      have hspec : (cleared.ensureUsageDailyRow u₀ r.usageDate).jobs = cleared.jobs ∧ _ := ensureUsageDailyRow_spec cleared u₀ r.usageDate
      obtain ⟨hjobs, hledger, hres, hused, hsome⟩ := hspec
      have hle : r.minutes ≤ (cleared.ensureUsageDailyRow u₀ r.usageDate).minutesReserved u₀ r.usageDate := by
        rw [hres]
        subst hclear
        exact h.minutes_le hfind hr hu
      cases hrow : (cleared.ensureUsageDailyRow u₀ r.usageDate).usage.find? (u₀, r.usageDate) with
      | none => simp [hrow] at hsome
      | some row =>
        have hjobs' : (cleared.ensureUsageDailyRow u₀ r.usageDate).jobs =
            db.jobs.put { j with reservedMinutes := 0, reservationUsageDate := .none } := by
          rw [hjobs, ← hclear]
        have hledger' : (cleared.ensureUsageDailyRow u₀ r.usageDate).ledger = db.ledger ++ [.committed r] := by
          rw [hledger, ← hclear]
        refine h.write hjobs' (fun u d => ?_) (fun u d => ?_) (hset _ hjobs' hledger')
        · rw [hcleared, hkey, hfind, minutesOf_of_reservation hr]
          refine (minutesReserved_settle _ hu hrow hle).trans ?_
          rw [hres, ← hclear]
          rfl
        · rw [show TranscriptionDb.ledger _ = db.ledger ++ [.committed r] from hledger', committedMinutes_append,
            committedMinutes_committed, hu]
          refine (minutesUsed_settle r.minutes _ hrow).trans ?_
          have hwas := h.used u d
          rw [hused, ← hclear]
          simp only [Option.some.injEq]
          exact congrArg (· + _) hwas

/-! ### Admitting a reservation -/

theorem Conserved.reserve {u : Uuid} {d : Date} {ent : Entitlements} {n : Nat} (h : db.Conserved)
    (hlive : db.liveReservation m = .none) (hres : db.reserveUsageMinutesOrRaise u d ent n = .ok db')
    (reason : TranscriptRequestReason) : (db'.resetPodcastTranscriptionJob m u reason n (.some d)).Conserved := by
  obtain ⟨hjobs, hledger, hused, hreserved⟩ := reserveUsageMinutes_spec hres
  generalize hjob : (⟨m, .some u, reason, n, .some d, .pending, .none⟩ : TranscriptionJob) = job
  have hid : job.mediaId = m := by rw [← hjob]
  have hput : (db'.resetPodcastTranscriptionJob m u reason n (.some d)).jobs = db.jobs.put job := by
    simp only [resetPodcastTranscriptionJob, hjobs, hjob]
  have hlog : (db'.resetPodcastTranscriptionJob m u reason n (.some d)).ledger =
      db.ledger ++ (reservation job).toList.map .admitted := by
    simp only [resetPodcastTranscriptionJob, hledger, hjob]
  have hmin (u' : Uuid) (d' : Date) : minutesOf u' d' (.some job) = if (u, d) = (u', d') then n else 0 := by
    simp only [minutesOf, Option.elim_some, holdsMinutes, ← hjob, Bool.and_eq_true, beq_iff_eq, Option.some.injEq,
      Prod.mk.injEq]
  refine h.write hput (fun u' d' => ?_) (fun u' d' => ?_) fun k => ?_
  · rw [hid, minutesOf_eq_zero hlive, hmin, Nat.add_zero]
    exact hreserved u' d'
  · rw [hlog]
    have hnone : committedMinutes (db.ledger ++ (reservation job).toList.map .admitted) u' d' =
        committedMinutes db.ledger u' d' := by
      cases reservation job with
      | none => simp
      | some r => exact committedMinutes_append _ _ _ _
    rw [hnone]
    exact (hused u' d').trans (h.used u' d')
  · rw [hlog, liveReservation_put hput, hid]
    cases hr : reservation job with
    | none =>
      simp only [Option.toList_none, List.map_nil, List.append_nil, h.settled k]
      split
      next hk => rw [← hk, hlive]
      next => rfl
    | some r =>
      have hmedia : (LedgerEntry.admitted r).reservation.mediaId = m := (reservation_eq_some hr).1.trans hid
      simp only [Option.toList_some, List.map_cons, List.map_nil, outstanding_append, hmedia, h.settled k]
      by_cases hk : m = k
      · subst hk
        simp [hlive, settle]
      · simp [hk]

theorem Conserved.reset (h : db.Conserved) (hlive : db.liveReservation m = .none) (u : Uuid)
    (reason : TranscriptRequestReason) : (db.resetPodcastTranscriptionJob m u reason 0 .none).Conserved := by
  have hput : (db.resetPodcastTranscriptionJob m u reason 0 .none).jobs =
      db.jobs.put ⟨m, .some u, reason, 0, .none, .pending, .none⟩ := rfl
  have hlog : (db.resetPodcastTranscriptionJob m u reason 0 .none).ledger = db.ledger := by
    simp [resetPodcastTranscriptionJob, reservation]
  refine h.write hput (fun u' d' => ?_) (fun u' d' => ?_) fun k => ?_
  · rw [minutesOf_eq_zero hlive]
    simp only [minutesOf, Option.elim_some, ite_self]
    rfl
  · rw [hlog]
    exact h.used u' d'
  · rw [hlog, liveReservation_put hput, h.settled k]
    split
    next hk => simp [← hk, hlive, reservation]
    next => rfl

/-! ### Other jobs -/

theorem liveReservation_release (db : TranscriptionDb) (m k : Uuid) :
    (db.releaseReservedUsageForMedia m).liveReservation k = if m = k then .none else db.liveReservation k := by
  unfold releaseReservedUsageForMedia
  rcases claimJobReservation_spec db m with ⟨hnone, hclaim⟩ | ⟨j, r, hfind, hr, hclaim⟩
  · rw [hclaim]
    by_cases hk : m = k
    · rw [if_pos hk, ← hk]
      exact hnone
    · rw [if_neg hk]
  · rw [hclaim]
    have hkey := (Table.find?_eq_some.1 hfind).2
    have hput (db' : TranscriptionDb) (hj : db'.jobs = db.jobs.put { j with reservedMinutes := 0, reservationUsageDate := .none }) :
        db'.liveReservation k = if m = k then .none else db.liveReservation k := by
      rw [liveReservation_put hj, hkey]
      rfl
    dsimp only [record]
    split <;> exact hput _ rfl

theorem liveReservation_reset_ne (db : TranscriptionDb) {m k : Uuid} (hk : k ≠ m) (u : Uuid) (reason : TranscriptRequestReason)
    (n : Nat) (d : Option Date) : (db.resetPodcastTranscriptionJob m u reason n d).liveReservation k = db.liveReservation k := by
  rw [liveReservation_put rfl, if_neg (Ne.symm hk)]

theorem liveReservation_updateJob (db : TranscriptionDb) (m k : Uuid) {f : TranscriptionJob → TranscriptionJob}
    (hf : ∀ j, (f j).mediaId = j.mediaId ∧ (f j).requestedByUserId = j.requestedByUserId ∧
      (f j).reservedMinutes = j.reservedMinutes ∧ (f j).reservationUsageDate = j.reservationUsageDate) :
    (db.updateJob m f).liveReservation k = db.liveReservation k := by
  unfold TranscriptionDb.updateJob
  cases hfind : db.jobs.find? m with
  | none => rfl
  | some j =>
    obtain ⟨hid, huser, hmin, hdate⟩ := hf j
    have hsame : reservation (f j) = reservation j := by simp only [reservation, hid, huser, hmin, hdate]
    rw [liveReservation_put rfl, hsame, hid, (Table.find?_eq_some.1 hfind).2]
    split
    next hk => simp [← hk, liveReservation, hfind]
    next => rfl

theorem Conserved.markFailure (h : db.Conserved) (m : Uuid) (code : ApiErrorCode) :
    (db.markPodcastTranscriptionFailure m code).Conserved := by
  have hfailed : (db.updateJob m fun j => { j with status := .failed, errorCode := .some code }).Conserved :=
    h.updateJob m fun _ => ⟨rfl, rfl, rfl, rfl⟩
  exact (hfailed.release m).setState _ _ _ _

theorem liveReservation_markFailure_ne (db : TranscriptionDb) {m k : Uuid} (hk : k ≠ m) (code : ApiErrorCode) :
    (db.markPodcastTranscriptionFailure m code).liveReservation k = db.liveReservation k := by
  unfold markPodcastTranscriptionFailure
  dsimp only
  rw [liveReservation_congr (setMediaTranscriptState_jobs _ _ _ _ _), liveReservation_release, if_neg (Ne.symm hk)]
  exact liveReservation_updateJob db m k fun _ => ⟨rfl, rfl, rfl, rfl⟩

/-! ## Requests and phases -/

theorem Conserved.requestPublisher {o : Observation} (h : db.Conserved) (u : Uuid) (reason : TranscriptRequestReason) (enqueued : Bool) :
    (db.requestPublisherTranscript u reason o enqueued).1.Conserved ∧ ∀ k, k ≠ o.mediaId →
      (db.requestPublisherTranscript u reason o enqueued).1.liveReservation k = db.liveReservation k := by
  unfold requestPublisherTranscript
  dsimp only
  refine ⟨?_, fun k hk => ?_⟩
  · have hreleased := (h.ensureState o.mediaId).release o.mediaId
    have hnone : ((db.ensureMediaTranscriptStateRow o.mediaId).releaseReservedUsageForMedia o.mediaId).liveReservation o.mediaId = .none := by
      rw [liveReservation_release, if_pos rfl]
    exact (hreleased.reset hnone u reason).setState _ _ _ _
  · rw [liveReservation_congr (setMediaTranscriptState_jobs _ _ _ _ _), liveReservation_reset_ne _ hk, liveReservation_release,
      if_neg (Ne.symm hk)]
    exact liveReservation_congr (ensureMediaTranscriptStateRow_same _).1

theorem Conserved.requestGenerated {o : Observation} {u : Uuid} {reason : TranscriptRequestReason} {d : Date} {enqueued : Bool}
    {response : TranscriptRequestResponse} (h : db.Conserved) (hlive : db.liveReservation o.mediaId = .none)
    (hrun : db.requestGeneratedTranscript u reason o d enqueued = .ok (db', response)) :
    db'.Conserved ∧ ∀ k, k ≠ o.mediaId → db'.liveReservation k = db.liveReservation k := by
  unfold requestGeneratedTranscript at hrun
  obtain ⟨reserved, hres, hrun⟩ := map_eq_ok.1 hrun
  have hadmitted := h.reserve hlive hres reason
  have hkept (k : Uuid) (hk : k ≠ o.mediaId) :
      (reserved.resetPodcastTranscriptionJob o.mediaId u reason o.requiredMinutes (.some d)).liveReservation k =
        db.liveReservation k := by
    rw [liveReservation_reset_ne _ hk]
    exact liveReservation_congr (reserveUsageMinutes_spec hres).1
  dsimp only at hrun
  split at hrun
  · obtain ⟨rfl, -⟩ := Prod.mk.inj hrun
    exact ⟨hadmitted.setState _ _ _ _, hkept⟩
  · obtain ⟨rfl, -⟩ := Prod.mk.inj hrun
    refine ⟨(hadmitted.setState _ _ _ _).markFailure _ _, fun k hk => ?_⟩
    rw [liveReservation_markFailure_ne _ hk]
    exact hkept k hk

/-- A request keeps minutes conserved, if an episode it reserves for has no
reservation, and it leaves the other episodes' reservations alone. -/
theorem Conserved.request {o : Observation} (h : db.Conserved) (u : Uuid) (reason : TranscriptRequestReason)
    (dryRun autoCommit : Bool) (d : Date) (enqueued : Bool)
    (hlive : dryRun = false → o.reserves = true → db.liveReservation o.mediaId = .none) :
    (db.requestMediaTranscript u reason dryRun autoCommit o d enqueued).1.Conserved ∧ ∀ k, k ≠ o.mediaId →
      (db.requestMediaTranscript u reason dryRun autoCommit o d enqueued).1.liveReservation k = db.liveReservation k := by
  have hensured : (if o.state.isNone then db.ensureMediaTranscriptStateRow o.mediaId else db).Conserved := by
    split
    · exact h.ensureState _
    · exact h
  have hkept (k : Uuid) : (if o.state.isNone then db.ensureMediaTranscriptStateRow o.mediaId else db).liveReservation k =
      db.liveReservation k := by
    split
    · exact liveReservation_congr (ensureMediaTranscriptStateRow_same _).1
    · rfl
  unfold requestMediaTranscript
  dsimp only
  generalize (if o.state.isNone then db.ensureMediaTranscriptStateRow o.mediaId else db) = ensured at hensured hkept
  by_cases hpub : o.asksPublisher = true
  · rw [if_pos hpub]
    by_cases hdry : dryRun = true
    · rw [if_pos hdry]
      exact ⟨h, fun _ _ => rfl⟩
    · rw [if_neg hdry]
      exact h.requestPublisher u reason enqueued
  rw [if_neg hpub]
  by_cases hcan : o.entitlements.canTranscribe = true
  swap
  · rw [if_pos (by simpa using hcan)]
    exact ⟨h, fun _ _ => rfl⟩
  rw [if_neg (by simpa using hcan)]
  by_cases hdry : dryRun = true
  · rw [if_pos hdry]
    exact ⟨hensured, fun k _ => hkept k⟩
  rw [if_neg hdry]
  by_cases hrepair : o.semanticNeedsRepair = true
  · rw [if_pos hrepair]
    cases enqueued
    · exact ⟨hensured, fun k _ => hkept k⟩
    · exact ⟨hensured.setState _ _ _ _, fun k _ => hkept k⟩
  rw [if_neg hrepair]
  by_cases hidle : (o.alreadyReady || o.alreadyInflight) = true
  · rw [if_pos hidle]
    exact ⟨hensured, fun k _ => hkept k⟩
  rw [if_neg hidle]
  by_cases hfits : o.fitsBudget = true
  swap
  · rw [if_pos (by simpa using hfits)]
    cases autoCommit
    · exact ⟨h, fun _ _ => rfl⟩
    · exact ⟨hensured, fun k _ => hkept k⟩
  rw [if_neg (by simpa using hfits)]
  have hreserves : o.reserves = true := by
    simp only [Bool.or_eq_true, not_or, Bool.not_eq_true] at hidle
    simp only [Observation.reserves, Bool.not_eq_true] at hpub ⊢
    simp [hpub, hcan, hidle.1, hidle.2, hfits]
  have hnone := (hkept o.mediaId).trans (hlive (by simpa using hdry) hreserves)
  split
  · exact ⟨h, fun _ _ => rfl⟩
  next hrun =>
    obtain ⟨hc, hk⟩ := hensured.requestGenerated hnone hrun
    exact ⟨hc, fun k hne => (hk k hne).trans (hkept k)⟩

/-- A query keeps minutes conserved: its episodes differ, so what one of its
requests writes is no other's reservation. -/
theorem Conserved.query {u : Uuid} {reason : TranscriptRequestReason} {dryRun : Bool} {d : Date} {enqueued : Uuid → Bool} :
    ∀ {os : List Observation} {db db' : TranscriptionDb}, db.Conserved → (os.map Observation.mediaId).Nodup →
      (dryRun = false → ∀ o ∈ os, o.reserves = true → db.liveReservation o.mediaId = .none) →
      db.requestQueryTranscripts u reason dryRun os d enqueued = .ok db' → db'.Conserved
  | [], db, db', h, _, _, hrun => by
    obtain rfl := Except.ok.inj hrun
    exact h
  | o :: os, db, db', h, hnodup, hlive, hrun => by
    unfold requestQueryTranscripts at hrun
    rw [List.foldlM_cons] at hrun
    obtain ⟨db₁, h₁, hrun⟩ := bind_eq_ok.1 hrun
    obtain ⟨hconserved, hkept⟩ := h.request u reason dryRun false d (enqueued o.mediaId)
      fun hdry hres => hlive hdry o List.mem_cons_self hres
    obtain ⟨hfresh, hnodup⟩ := List.nodup_cons.1 hnodup
    split at h₁
    next heq =>
      obtain rfl := Except.ok.inj h₁
      rw [heq] at hconserved hkept
      refine Conserved.query hconserved hnodup (fun hdry o' ho' hres => ?_) hrun
      have hne : o'.mediaId ≠ o.mediaId := fun heq' => hfresh (heq' ▸ List.mem_map_of_mem ho')
      exact (hkept _ hne).trans (hlive hdry o' (List.mem_cons_of_mem _ ho') hres)
    next => cases h₁

theorem Conserved.prepare {u : Uuid} {reason : TranscriptRequestReason} {ent : Entitlements} {d : Date} (h : db.Conserved)
    (hlive : db.liveReservation m = .none) (hrun : db.preparePodcastTranscription m u reason ent d = .ok db') :
    db'.Conserved := by
  unfold preparePodcastTranscription at hrun
  dsimp only at hrun
  split at hrun
  · cases hrun
  split at hrun
  · cases hrun
  obtain ⟨reserved, hres, rfl⟩ := map_eq_ok.1 hrun
  exact (h.reserve hlive hres reason).setState _ _ _ _

end TranscriptionDb

/-! ## Runs -/

section Runs

variable {s t : TranscriptionWorld} {ev : TranscriptionEvent}

/-- A transaction reads an episode once. -/
def OncePerEpisode (s : TranscriptionWorld) : Prop :=
  ∀ tx t, s.txs tx = .some t → (t.observations.map Observation.mediaId).Nodup

def TranscriptionWorld.Inv (s : TranscriptionWorld) : Prop := s.db.Conserved ∧ OncePerEpisode s

theorem OncePerEpisode.setTx {tx : Uuid} {x : Option TranscriptTx} (h : OncePerEpisode s)
    (hx : ∀ t, x = .some t → (t.observations.map Observation.mediaId).Nodup) : OncePerEpisode (s.setTx tx x) := by
  intro k t hk
  simp only [TranscriptionWorld.setTx] at hk
  split at hk
  · exact hx t hk
  · exact h k t hk

theorem TranscriptTx.commit_conserved {x : TranscriptTx} {db : TranscriptionDb} {d : Date} {enqueued : Uuid → Bool}
    (h : db.Conserved) (hnodup : (x.observations.map Observation.mediaId).Nodup)
    (hlive : x.dryRun = false → ∀ o ∈ x.observations, o.reserves = true → db.liveReservation o.mediaId = .none) :
    (x.commit db d enqueued).Conserved := by
  unfold TranscriptTx.commit
  by_cases hq : x.query = true
  · rw [if_pos hq]
    split
    next hrun => exact TranscriptionDb.Conserved.query h hnodup hlive hrun
    next => exact h
  · rw [if_neg hq]
    split
    next o heq =>
      rw [heq] at hlive
      exact (h.request x.viewerId x.reason x.dryRun true d (enqueued o.mediaId)
        fun hdry hres => hlive hdry o List.mem_cons_self hres).1
    next => exact h

theorem TranscriptionWorld.Inv.step (h : s.Inv) (hs : s.next ev = .some t) (hg : ev.KeepsReservations s) : t.Inv := by
  obtain ⟨hc, honce⟩ := h
  cases ev with
  | start tx viewerId reason dryRun query =>
    simp only [next] at hs
    split at hs
    · cases hs
    · obtain rfl := Option.some.inj hs
      refine ⟨hc, honce.setTx fun t ht => ?_⟩
      obtain rfl := Option.some.inj ht
      exact List.nodup_nil
  | read tx mediaId entitlements repair =>
    simp only [next] at hs
    split at hs
    · cases hs
    next x hx =>
      split at hs
      · cases hs
      next hnew =>
        obtain rfl := Option.some.inj hs
        refine ⟨hc, honce.setTx fun t ht => ?_⟩
        obtain rfl := Option.some.inj ht
        have hold := honce tx x hx
        simp only [List.any_eq_true, beq_iff_eq, not_exists, not_and] at hnew
        rw [List.map_append, List.map_cons, List.map_nil, List.nodup_append]
        refine ⟨hold, List.nodup_singleton _, fun a ha b hb heq => ?_⟩
        obtain ⟨o, ho, rfl⟩ := List.mem_map.1 ha
        exact hnew o ho (heq.trans (List.mem_singleton.1 hb))
  | commit tx usageDate enqueued =>
    obtain ⟨x, hx, rfl⟩ := Option.map_eq_some_iff.1 hs
    refine ⟨TranscriptTx.commit_conserved hc (honce tx x hx) (hg x hx), ?_⟩
    exact OncePerEpisode.setTx honce nofun
  | abandon tx =>
    obtain rfl := Option.some.inj hs
    exact ⟨hc, honce.setTx nofun⟩
  | prepare mediaId userId reason entitlements usageDate =>
    simp only [next] at hs
    split at hs
    next hrun =>
      obtain rfl := Option.some.inj hs
      exact ⟨hc.prepare hg hrun, honce⟩
    next =>
      obtain rfl := Option.some.inj hs
      exact ⟨hc, honce⟩
  | running mediaId =>
    obtain rfl := Option.some.inj hs
    have hrunning : (s.db.updateJob mediaId fun j => { j with status := .running, errorCode := .none }).Conserved :=
      hc.updateJob mediaId fun _ => ⟨rfl, rfl, rfl, rfl⟩
    exact ⟨hrunning.setState _ _ _ _, honce⟩
  | publisherPublished mediaId =>
    obtain rfl := Option.some.inj hs
    refine ⟨(hc.setState mediaId _ _ _).updateJob mediaId fun j => ?_, honce⟩
    split <;> exact ⟨rfl, rfl, rfl, rfl⟩
  | completed mediaId code =>
    obtain rfl := Option.some.inj hs
    have hcompleted : ((s.db.setMediaTranscriptState mediaId .ready .full (.some .pending)).updateJob mediaId fun j =>
        { j with status := .completed, errorCode := code }).Conserved :=
      (hc.setState mediaId _ _ _).updateJob mediaId fun _ => ⟨rfl, rfl, rfl, rfl⟩
    exact ⟨hcompleted.commit mediaId, honce⟩
  | failed mediaId code =>
    obtain rfl := Option.some.inj hs
    exact ⟨hc.markFailure mediaId code, honce⟩
  | indexed mediaId state coverage semantic =>
    obtain rfl := Option.some.inj hs
    exact ⟨hc.setState _ _ _ _, honce⟩

theorem TranscriptionWorld.Inv.init (h : transcriptionSystem.init s) : s.Inv := by
  obtain ⟨hjobs, husage, hledger, htxs⟩ := h
  refine ⟨⟨fun u d => ?_, fun u d => ?_, fun m => ?_⟩, fun tx t ht => ?_⟩
  · rw [hjobs, TranscriptionDb.minutesReserved, husage, Table.sumBy_empty]
    rfl
  · rw [hledger, TranscriptionDb.minutesUsed, husage]
    rfl
  · rw [hledger, TranscriptionDb.liveReservation, hjobs]
    rfl
  · rw [htxs] at ht
    cases ht

end Runs

/-! ### Two requests for one episode -/

end Nexus.Podcasts
