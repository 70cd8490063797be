/-
The job registry, the periodic slots and the scheduler tick: `jobs/registry.py`
and `JobWorker.run_scheduler_once`.

Of a definition this keeps what the scheduler and the pruning read. What a tick
may do again is what its dedupe keys allow: a kind and a slot are read off the
key (`periodicDedupeKey_injective`).
-/
import Nexus.Jobs.Fencing
import Nexus.Lib.PosixTime

namespace Nexus.Jobs
open Relational Transition

/-! ## Settings -/

/-- The settings schedules and retention are read from. -/
structure Settings where
  podcastRefreshDueScheduleSeconds : Int
  ingestReconcileScheduleSeconds : Int
  syncGutenbergCatalogScheduleSeconds : Int
  backgroundJobPruneScheduleSeconds : Int
  dawnWriteScheduleSeconds : Int
  atlasProjectScheduleSeconds : Int
  storageOrphanSweepIntervalSeconds : Int
  backgroundJobPruneSucceededAfterDays : Int
  backgroundJobPruneDeadAfterDays : Int
  backgroundJobPruneBatchSize : Int

/-- What the settings validator asks of them. -/
structure Settings.Valid (settings : Settings) : Prop where
  podcastRefreshDueScheduleSeconds : 1 ≤ settings.podcastRefreshDueScheduleSeconds
  ingestReconcileScheduleSeconds : 0 ≤ settings.ingestReconcileScheduleSeconds
  syncGutenbergCatalogScheduleSeconds : 0 ≤ settings.syncGutenbergCatalogScheduleSeconds
  backgroundJobPruneScheduleSeconds : 0 ≤ settings.backgroundJobPruneScheduleSeconds
  atlasProjectScheduleSeconds : 0 ≤ settings.atlasProjectScheduleSeconds
  storageOrphanSweepIntervalSeconds : 0 < settings.storageOrphanSweepIntervalSeconds
  backgroundJobPruneSucceededAfterDays : 1 ≤ settings.backgroundJobPruneSucceededAfterDays
  backgroundJobPruneDeadAfterDays : 1 ≤ settings.backgroundJobPruneDeadAfterDays
  backgroundJobPruneBatchSize : 1 ≤ settings.backgroundJobPruneBatchSize

/-! ## Registry -/

structure JobDefinition where
  kind : String
  maxAttempts : Int := 3
  periodicIntervalSeconds : Option Int := .none
  neverPruneDead : Bool := false
  deriving DecidableEq, Repr

/-- `int(seconds) if seconds > 0 else None` -/
def ifPositive (seconds : Int) : Option Int := if 0 < seconds then .some seconds else .none

def podcastRefreshRunPruneIntervalSeconds : Int := 24 * 60 * 60

/-- The values of `_build_default_registry`. -/
def defaultRegistry (settings : Settings) : List JobDefinition :=
  [{ kind := "ingest_media_source", neverPruneDead := true },
   { kind := "media_content_reindex_job", neverPruneDead := true },
   { kind := "enrich_metadata", maxAttempts := 1 },
   { kind := "chat_run", neverPruneDead := true },
   { kind := "dossier_build", neverPruneDead := true },
   { kind := "podcast_sync_subscription_job" },
   { kind := "podcast_backfill_subscription", neverPruneDead := true },
   { kind := "podcast_reindex_semantic_job", neverPruneDead := true },
   { kind := "note_reindex_job" },
   { kind := "podcast_refresh_due_job", maxAttempts := 1,
     periodicIntervalSeconds := .some settings.podcastRefreshDueScheduleSeconds },
   { kind := "podcast_refresh_run_prune_job", maxAttempts := 1,
     periodicIntervalSeconds := .some podcastRefreshRunPruneIntervalSeconds },
   { kind := "reconcile_stale_ingest_media_job", maxAttempts := 1,
     periodicIntervalSeconds := ifPositive settings.ingestReconcileScheduleSeconds },
   { kind := "sync_gutenberg_catalog_job", maxAttempts := 1,
     periodicIntervalSeconds := ifPositive settings.syncGutenbergCatalogScheduleSeconds },
   { kind := "prune_background_jobs_job", maxAttempts := 1,
     periodicIntervalSeconds := ifPositive settings.backgroundJobPruneScheduleSeconds },
   { kind := "purge_expired_auth_handoff_codes", maxAttempts := 1, periodicIntervalSeconds := .some 3600 },
   { kind := "oracle_reading_generate", maxAttempts := 1 },
   { kind := "media_unit_build", neverPruneDead := true },
   { kind := "synapse_scan" },
   { kind := "dawn_write_job", maxAttempts := 1,
     periodicIntervalSeconds := ifPositive settings.dawnWriteScheduleSeconds },
   { kind := "atlas_project_job", periodicIntervalSeconds := ifPositive settings.atlasProjectScheduleSeconds },
   { kind := "media_teardown", maxAttempts := 5, neverPruneDead := true },
   { kind := "storage_object_cleanup", maxAttempts := 5, neverPruneDead := true },
   { kind := "storage_orphan_sweep", periodicIntervalSeconds := .some settings.storageOrphanSweepIntervalSeconds,
     neverPruneDead := true }]

/-- The kinds `prune_background_jobs_job` excludes. -/
def excludedDeadKinds (settings : Settings) : List String :=
  ((defaultRegistry settings).filter fun d => d.neverPruneDead).map fun d => d.kind

theorem kinds_nodup (settings : Settings) : ((defaultRegistry settings).map fun d => d.kind).Nodup := by
  simp only [defaultRegistry, List.map_cons, List.map_nil]
  decide

/-! ## Slots -/

/-- `periodic_slot_start`, in seconds since the epoch, of a positive interval. -/
def periodicSlotStart (now : Instant) (intervalSeconds : Nat) : Nat :=
  Posix.seconds now - Posix.seconds now % intervalSeconds

/-- `periodic_dedupe_key`; its tail is also that of the request id. -/
def periodicDedupeKey (kind : String) (slotStart : Nat) : String :=
  String.ofList ("periodic:".toList ++ (kind.toList ++ ':' :: Posix.isoformat slotStart))

theorem periodicSlotStart_le (now : Instant) (intervalSeconds : Nat) :
    periodicSlotStart now intervalSeconds ≤ Posix.seconds now := Nat.sub_le _ _

theorem lt_periodicSlotStart_add (now : Instant) {intervalSeconds : Nat} (h : 0 < intervalSeconds) :
    Posix.seconds now < periodicSlotStart now intervalSeconds + intervalSeconds := by
  have hmod := Nat.mod_lt (Posix.seconds now) h
  unfold periodicSlotStart
  omega

/-- **A key tells its kind and its slot.** -/
theorem periodicDedupeKey_injective {kind kind' : String} {slot slot' : Nat} (hs : Posix.InRange slot)
    (hs' : Posix.InRange slot') (h : periodicDedupeKey kind slot = periodicDedupeKey kind' slot') :
    kind = kind' ∧ slot = slot' := by
  have hlists := List.append_cancel_left (String.ofList_injective h)
  have hlength : (':' :: Posix.isoformat slot).length = (':' :: Posix.isoformat slot').length := by
    rw [List.length_cons, List.length_cons, Posix.length_isoformat, Posix.length_isoformat]
  obtain ⟨hkind, hslot⟩ := List.append_inj' hlists hlength
  exact ⟨String.toList_injective hkind, Posix.isoformat_injective hs hs' (List.cons.inj hslot).2⟩

/-! ## The tick -/

/-- What the scheduler writes: a payload of a request id and its worker. -/
class SchedulerPayload (P : Type) extends Payload P where
  periodic : String → String → P

/-- The definitions a worker schedules. -/
def scheduled (settings : Settings) (allowedKinds : Option (List String)) : List JobDefinition :=
  (defaultRegistry settings).filter fun d =>
    d.periodicIntervalSeconds.any (0 < ·) && allowedKinds.all fun kinds => kinds.contains d.kind

abbrev Slot := String × Nat

section Tick

variable {P : Type} [SchedulerPayload P]

/-- A tick's enqueues, one for each definition; it adds the slots it inserted. A
slot no datetime has and a row refused for its id fail the transaction. -/
def enqueueDue (now : Instant) (workerId : String) (newId : String → Uuid) :
    List JobDefinition → List Slot × Queue P → Option (List Slot × Queue P)
  | [], r => .some r
  | d :: definitions, (inserted, q) =>
    let slotStart := periodicSlotStart now (d.periodicIntervalSeconds.getD 0).toNat
    let key := periodicDedupeKey d.kind slotStart
    if ¬Posix.InRange slotStart then .none
    else match q.enqueueUniqueJob now (newId d.kind) d.kind (SchedulerPayload.periodic key workerId) key 100 d.maxAttempts
        (.some (slotStart * microsecondsPerSecond)) with
    | .none => .none
    | .some (_, wasInserted, q) =>
      enqueueDue now workerId newId definitions (if wasInserted then (d.kind, slotStart) :: inserted else inserted, q)

/-- `run_scheduler_once`, at a time a `datetime` has. -/
def runSchedulerOnce (settings : Settings) (now : Instant) (workerId : String) (allowedKinds : Option (List String))
    (newId : String → Uuid) (r : List Slot × Queue P) : Option (List Slot × Queue P) :=
  if Posix.epochDay * Iso.microsPerDay + now < Iso.maxMicros then
    enqueueDue now workerId newId (scheduled settings allowedKinds) r
  else .none

end Tick

end Nexus.Jobs
