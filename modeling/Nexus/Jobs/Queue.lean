/-
`jobs/queue.py`: the statements on `background_jobs`.

Each function is one statement, or one locked read and the update that
follows it, so it is atomic here. `updateJob` is `UPDATE … WHERE id = … AND
guard RETURNING *`; a function that finds no row returns `none` and changes
nothing. Statements that skip rows other transactions hold locked take the
locked ids, and every statement the `now()` (or `clock_timestamp()`) it reads.

The payload is any `jsonb`: only containment and the one literal the queue
writes are asked of it. `pg_notify` wakes workers and writes nothing. The
unique indexes on queued page and note jobs can only refuse a statement.
-/
import Nexus.Jobs.Lifecycle
import Nexus.Lib.Table

namespace Nexus.Jobs
open Relational

/-- What the queue asks of a `jsonb` payload. -/
class Payload (P : Type) where
  /-- `payload @> expected` -/
  contains : P → P → Bool
  /-- `{"status": "superseded"}` -/
  superseded : P

/-- A row of `background_jobs`. -/
structure JobRow (P : Type) where
  id : Uuid
  kind : String
  payload : P
  status : JobStatus
  priority : Int
  attempts : Nat
  maxAttempts : Nat
  availableAt : Instant
  leaseExpiresAt : Option Instant
  claimedBy : Option String
  dedupeKey : Option String
  errorCode : Option String
  lastError : Option String
  result : Option P
  startedAt : Option Instant
  finishedAt : Option Instant
  createdAt : Instant
  updatedAt : Instant

abbrev Queue (P : Type) := Table (JobRow P) JobRow.id

structure JobExecutionContext where
  jobId : Uuid
  workerId : String
  attemptNo : Nat
  deriving DecidableEq, Repr

variable {P : Type}

def JobRow.lifecycle (j : JobRow P) : Lifecycle :=
  ⟨j.status, j.attempts, j.maxAttempts, j.leaseExpiresAt, j.claimedBy, j.finishedAt⟩

/-- `max(int(seconds), 1)` seconds after `now`. -/
def leaseUntil (now : Instant) (leaseSeconds : Int) : Instant :=
  now + (max leaseSeconds 1).toNat * microsecondsPerSecond

/-! ## Guards -/

/-- `status IN ('pending', 'failed')` -/
def JobRow.waiting (j : JobRow P) : Bool := j.status == .pending || j.status == .failed

/-- `status IN ('pending', 'failed') AND available_at <= now()` -/
def JobRow.due (now : Instant) (j : JobRow P) : Bool := j.waiting && decide (j.availableAt ≤ now)

/-- `status = 'running' AND lease_expires_at IS NOT NULL AND lease_expires_at <= now()` -/
def JobRow.leaseExpired (now : Instant) (j : JobRow P) : Bool :=
  j.status == .running && j.leaseExpiresAt.any fun lease => decide (lease ≤ now)

def JobRow.reclaimable (now : Instant) (j : JobRow P) : Bool :=
  j.leaseExpired now && decide (j.attempts < j.maxAttempts)

def JobRow.exhausted (now : Instant) (j : JobRow P) : Bool :=
  j.leaseExpired now && decide (j.maxAttempts ≤ j.attempts)

/-- `status = 'running' AND claimed_by = worker AND lease_expires_at > now()` -/
def JobRow.ownedBy (worker : String) (now : Instant) (j : JobRow P) : Bool :=
  j.status == .running && j.claimedBy == .some worker && j.leaseExpiresAt.any fun lease => decide (now < lease)

/-- `ownedBy`, at one attempt. -/
def JobRow.ownedAttempt (ctx : JobExecutionContext) (now : Instant) (j : JobRow P) : Bool :=
  j.ownedBy ctx.workerId now && j.attempts == ctx.attemptNo

/-- `status IN ('pending', 'failed') AND claimed_by IS NULL AND kind = …` -/
def JobRow.waitingUnclaimed (kind : String) (j : JobRow P) : Bool :=
  j.waiting && j.claimedBy.isNone && j.kind == kind

/-- `kind = ANY(:allowed_kinds)`, when kinds are given. -/
def JobRow.kindAllowed (allowedKinds : Option (List String)) (j : JobRow P) : Bool :=
  allowedKinds.all fun kinds => kinds.contains j.kind

/-! ## Statements -/

namespace Queue

/-- `UPDATE background_jobs SET f WHERE id = … AND guard RETURNING *` -/
def updateJob (q : Queue P) (jobId : Uuid) (guard : JobRow P → Bool) (f : JobRow P → JobRow P)
    (hf : ∀ j, (f j).id = j.id := by intro _; rfl) : Option (JobRow P × Queue P) :=
  match q.find? jobId with
  | .none => .none
  | .some j => if guard j then .some (f j, q.updateWhere (fun j => j.id == jobId) f hf) else .none

/-- What an insert gives: `_INSERT_JOB_SQL`. -/
def newRow (now : Instant) (jobId : Uuid) (kind : String) (payload : P) (priority maxAttempts : Int)
    (availableAt : Option Instant) (dedupeKey : Option String) : JobRow P where
  id := jobId
  kind := kind
  payload := payload
  status := .pending
  priority := priority
  attempts := 0
  maxAttempts := (max maxAttempts 1).toNat
  availableAt := availableAt.getD now
  leaseExpiresAt := .none
  claimedBy := .none
  dedupeKey := dedupeKey
  errorCode := .none
  lastError := .none
  result := .none
  startedAt := .none
  finishedAt := .none
  createdAt := now
  updatedAt := now

/-- `SELECT * FROM background_jobs WHERE dedupe_key = …` -/
def findDedupe (q : Queue P) (dedupeKey : String) : Option (JobRow P) :=
  q.rows.find? fun j => j.dedupeKey == .some dedupeKey

/-- `enqueue_job`: a taken dedupe key violates the unique index. -/
def enqueueJob (q : Queue P) (now : Instant) (jobId : Uuid) (kind : String) (payload : P)
    (priority maxAttempts : Int) (availableAt : Option Instant) (dedupeKey : Option String) :
    Option (JobRow P × Queue P) :=
  if (dedupeKey.bind q.findDedupe).isSome then .none
  else
    let row := newRow now jobId kind payload priority maxAttempts availableAt dedupeKey
    (q.insert? row).map fun q => (row, q)

/-- `enqueue_unique_job`: the row that has the key, and whether it was inserted. -/
def enqueueUniqueJob (q : Queue P) (now : Instant) (jobId : Uuid) (kind : String) (payload : P)
    (dedupeKey : String) (priority maxAttempts : Int) (availableAt : Option Instant) :
    Option (JobRow P × Bool × Queue P) :=
  match q.findDedupe dedupeKey with
  | .some existing => .some (existing, false, q)
  | .none => (q.enqueueJob now jobId kind payload priority maxAttempts availableAt (.some dedupeKey)).map
      fun (row, q) => (row, true, q)

/-- `SET status = 'running', attempts = attempts + 1, claimed_by = …` -/
def claim (now : Instant) (worker : String) (leaseSeconds : Int) (j : JobRow P) : JobRow P :=
  { j with
    status := .running
    attempts := j.attempts + 1
    claimedBy := .some worker
    startedAt := .some (j.startedAt.getD now)
    leaseExpiresAt := .some (leaseUntil now leaseSeconds)
    updatedAt := now }

/-- `ORDER BY priority ASC, ready_at ASC, created_at ASC, id ASC` -/
def readyLe (a b : JobRow P × Instant) : Bool :=
  ((compare a.1.priority b.1.priority).then <| (compare a.2 b.2).then <|
    (compare a.1.createdAt b.1.createdAt).then (compare a.1.id b.1.id)).isLE

/-- The candidate of `claim_next_job`: the first due row or the first row with
an expired lease, whichever is ready first. -/
def candidate (q : Queue P) (now : Instant) (allowedKinds : Option (List String)) (locked : List Uuid) :
    Option (JobRow P) :=
  let free := fun j : JobRow P => j.kindAllowed allowedKinds && !locked.contains j.id
  let lease := fun j : JobRow P => j.leaseExpiresAt.getD 0
  let due := (q.first? (fun j => j.due now && free j)
    fun a b => readyLe (a, a.availableAt) (b, b.availableAt)).map fun j => (j, j.availableAt)
  let expired := (q.first? (fun j => j.reclaimable now && free j)
    fun a b => readyLe (a, lease a) (b, lease b)).map fun j => (j, lease j)
  (Table.firstBy readyLe (due.toList ++ expired.toList)).map (·.1)

def claimNextJob (q : Queue P) (now : Instant) (worker : String) (leaseSeconds : Int)
    (allowedKinds : Option (List String)) (locked : List Uuid) : Option (JobRow P × Queue P) :=
  if allowedKinds = .some [] then .none
  else match q.candidate now allowedKinds locked with
    | .none => .none
    | .some j => q.updateJob j.id (fun _ => true) (claim now worker leaseSeconds)

def claimJob (q : Queue P) (now : Instant) (jobId : Uuid) (worker : String) (leaseSeconds : Int)
    (allowedKinds : Option (List String)) : Option (JobRow P × Queue P) :=
  if allowedKinds = .some [] then .none
  else q.updateJob jobId (fun j => j.kindAllowed allowedKinds && (j.due now || j.reclaimable now))
    (claim now worker leaseSeconds)

def deadLetterExpiredJob (q : Queue P) (now : Instant) (allowedKinds : Option (List String))
    (locked : List Uuid) : Option (JobRow P × Queue P) :=
  if allowedKinds = .some [] then .none
  else match q.first? (fun j => j.exhausted now && (j.kindAllowed allowedKinds && !locked.contains j.id))
      (fun a b => ((compare (a.leaseExpiresAt.getD 0) (b.leaseExpiresAt.getD 0)).then <|
        (compare a.createdAt b.createdAt).then (compare a.id b.id)).isLE) with
    | .none => .none
    | .some j => q.updateJob j.id (fun _ => true) fun j =>
      { j with
        status := .dead
        leaseExpiresAt := .none
        claimedBy := .none
        finishedAt := .some now
        errorCode := .some (j.errorCode.getD "E_JOB_LEASE_EXPIRED")
        lastError := .some (j.lastError.getD "Job lease expired after max attempts.")
        updatedAt := now }

/-- `promote_unclaimed_job`: a `RuntimeError`, or whether the job was waiting. -/
def promoteUnclaimedJob [DecidableEq P] (q : Queue P) (now : Instant) (jobId : Uuid) (kind : String)
    (payload : P) (dedupeKey : String) (priority : Int) : Except String (Bool × Queue P) :=
  match q.find? jobId with
  | .none => .error "Queue promotion target is missing"
  | .some j =>
    if j.kind ≠ kind ∨ j.payload ≠ payload ∨ j.dedupeKey.getD "" ≠ dedupeKey then
      .error "Queue promotion target does not match the exact operation"
    else if j.status = .running then .ok (false, q)
    else if !j.waiting || j.claimedBy.isSome then
      .error "Queue promotion target is not an active unclaimed operation"
    else .ok (true, q.updateWhere (fun j => j.id == jobId) fun j =>
      { j with priority := priority, availableAt := now, updatedAt := now })

def renew (now : Instant) (leaseSeconds : Int) (j : JobRow P) : JobRow P :=
  { j with leaseExpiresAt := .some (leaseUntil now leaseSeconds), updatedAt := now }

def heartbeatJob (q : Queue P) (now : Instant) (jobId : Uuid) (worker : String) (leaseSeconds : Int) :
    Option (JobRow P × Queue P) :=
  q.updateJob jobId (fun j => j.ownedBy worker now) (renew now leaseSeconds)

def lockAndRenewRunningJobClaim (q : Queue P) (now : Instant) (ctx : JobExecutionContext)
    (leaseSeconds : Int) : Option (JobRow P × Queue P) :=
  q.updateJob ctx.jobId (fun j => j.ownedAttempt ctx now) (renew now leaseSeconds)

def updateRunningJobPayload (q : Queue P) (now : Instant) (ctx : JobExecutionContext) (payload : P) :
    Option (JobRow P × Queue P) :=
  q.updateJob ctx.jobId (fun j => j.ownedAttempt ctx now) fun j => { j with payload := payload, updatedAt := now }

def runningJobClaimIsCurrent (q : Queue P) (now : Instant) (ctx : JobExecutionContext) : Bool :=
  (q.find? ctx.jobId).any fun j => j.ownedAttempt ctx now

/-- `lock_running_job_claim`: the row is locked and stays as it is. -/
def lockRunningJobClaim (q : Queue P) (now : Instant) (ctx : JobExecutionContext) :
    Option (JobRow P × Queue P) :=
  q.updateJob ctx.jobId (fun j => j.ownedAttempt ctx now) id

def rescheduleRunningJob (q : Queue P) (now : Instant) (ctx : JobExecutionContext) (availableAt : Instant)
    (payload : Option P) : Option (JobRow P × Queue P) :=
  q.updateJob ctx.jobId (fun j => j.ownedAttempt ctx now) fun j =>
    { j with
      status := .pending
      availableAt := availableAt
      payload := payload.getD j.payload
      attempts := j.attempts - 1
      claimedBy := .none
      leaseExpiresAt := .none
      updatedAt := now }

def completeJob (q : Queue P) (now : Instant) (jobId : Uuid) (worker : String) (resultPayload : Option P) :
    Option (JobRow P × Queue P) :=
  q.updateJob jobId (fun j => j.ownedBy worker now) fun j =>
    { j with
      status := .succeeded
      result := resultPayload
      leaseExpiresAt := .none
      claimedBy := .none
      finishedAt := .some now
      updatedAt := now }

def retryDelayForAttempt (attemptNumber : Nat) (retryDelaysSeconds : List Int) : Nat :=
  if retryDelaysSeconds.isEmpty then 0
  else (max (retryDelaysSeconds.getD (min (attemptNumber - 1) (retryDelaysSeconds.length - 1)) 0) 0).toNat

/-- The update of `fail_job`, for the row it has locked. -/
def failed (now : Instant) (errorCode errorMessage : String) (retryDelaysSeconds : List Int)
    (resultPayload : Option P) (j : JobRow P) : JobRow P :=
  let isDead := j.maxAttempts ≤ j.attempts
  let retryDelaySeconds := if isDead then 0 else retryDelayForAttempt j.attempts retryDelaysSeconds
  { j with
    status := if isDead then .dead else .failed
    availableAt := now + retryDelaySeconds * microsecondsPerSecond
    leaseExpiresAt := .none
    claimedBy := .none
    errorCode := .some errorCode
    lastError := .some (errorMessage.take 1000).toString
    result := resultPayload
    finishedAt := if isDead then .some now else .none
    updatedAt := now }

/-- `fail_job`, with the row whose status it returns. -/
def failJob (q : Queue P) (now : Instant) (jobId : Uuid) (worker errorCode errorMessage : String)
    (retryDelaysSeconds : List Int) (resultPayload : Option P) : Option (JobRow P × Queue P) :=
  q.updateJob jobId (fun j => j.ownedBy worker now)
    (failed now errorCode errorMessage retryDelaysSeconds resultPayload)

def replaceDeadJobPayload (q : Queue P) (now : Instant) (jobId : Uuid) (payload : P) :
    Option (JobRow P × Queue P) :=
  q.updateJob jobId (fun j => j.status == .dead) fun j => { j with payload := payload, updatedAt := now }

/-- `UPDATE background_jobs SET payload = … WHERE id = …`, before a locked dead
job is requeued. -/
def setPayload (q : Queue P) (jobId : Uuid) (payload : P) : Option (JobRow P × Queue P) :=
  q.updateJob jobId (fun _ => true) fun j => { j with payload := payload }

def requeueDeadJob (q : Queue P) (now : Instant) (jobId : Uuid) : Option (JobRow P × Queue P) :=
  q.updateJob jobId (fun j => j.status == .dead) fun j =>
    { j with
      status := .pending
      attempts := 0
      availableAt := now
      claimedBy := .none
      leaseExpiresAt := .none
      finishedAt := .none
      updatedAt := now }

def updateUnclaimedJob [Payload P] (q : Queue P) (now : Instant) (jobId : Uuid) (kind : String)
    (expected payload : P) (availableAt : Option Instant) : Option (JobRow P × Queue P) :=
  q.updateJob jobId
    (fun j => j.status == .pending && j.claimedBy.isNone && j.kind == kind && Payload.contains j.payload expected)
    fun j => { j with payload := payload, availableAt := availableAt.getD j.availableAt, updatedAt := now }

/-- `reset_unclaimed_job_for_new_intent`; no such row is `NoResultFound`. -/
def resetUnclaimedJobForNewIntent (q : Queue P) (now : Instant) (jobId : Uuid) (kind : String) (payload : P)
    (maxAttempts : Int) : Option (JobRow P × Queue P) :=
  q.updateJob jobId (fun j => j.waitingUnclaimed kind) fun j =>
    { j with
      payload := payload
      status := .pending
      attempts := 0
      maxAttempts := (max maxAttempts 1).toNat
      availableAt := now
      leaseExpiresAt := .none
      claimedBy := .none
      errorCode := .none
      lastError := .none
      result := .none
      startedAt := .none
      finishedAt := .none
      updatedAt := now }

/-- `supersede_unclaimed_job`; no such row is `NoResultFound`. -/
def supersedeUnclaimedJob [Payload P] (q : Queue P) (now : Instant) (jobId : Uuid) (kind : String) :
    Option (JobRow P × Queue P) :=
  q.updateJob jobId (fun j => j.waitingUnclaimed kind) fun j =>
    { j with
      status := .succeeded
      result := .some Payload.superseded
      leaseExpiresAt := .none
      claimedBy := .none
      finishedAt := .some now
      updatedAt := now }

def revokeJobsByDedupeKeys (q : Queue P) (kind : String) (dedupeKeys : List String) : Queue P :=
  q.deleteWhere fun j => j.kind == kind && j.dedupeKey.any dedupeKeys.contains

def revokeJobsForPayload [Payload P] (q : Queue P) (kind : String) (expected : P) : Queue P :=
  q.deleteWhere fun j => j.kind == kind && Payload.contains j.payload expected

/-- The delete that frees a dedupe key from finished rows before a new scan. -/
def freeDedupeKey (q : Queue P) (dedupeKey : String) : Queue P :=
  q.deleteWhere fun j => j.dedupeKey == .some dedupeKey && (j.status == .succeeded || j.status == .dead)

/-- The rows `prune_terminal_jobs` may delete. -/
def prunable (now : Instant) (succeededAfterDays deadAfterDays : Int) (excludedDeadKinds : List String)
    (j : JobRow P) : Bool :=
  let before := fun days : Int => j.finishedAt.any fun at_ =>
    decide (at_ + (max days 1).toNat * microsecondsPerDay < now)
  (j.status == .succeeded && before succeededAfterDays) ||
    (j.status == .dead && before deadAfterDays && !excludedDeadKinds.contains j.kind)

def pruneTerminalJobs (q : Queue P) (now : Instant) (succeededAfterDays deadAfterDays limit : Int)
    (excludedDeadKinds : List String) (locked : List Uuid) : Nat × Queue P :=
  let rows := (q.rows.filter fun j => prunable now succeededAfterDays deadAfterDays excludedDeadKinds j &&
    !locked.contains j.id).mergeSort fun a b =>
      ((compare (a.finishedAt.getD 0) (b.finishedAt.getD 0)).then (compare a.id b.id)).isLE
  let chosen := (rows.take (max limit 1).toNat).map (·.id)
  (chosen.length, q.deleteWhere fun j => chosen.contains j.id)

end Queue

end Nexus.Jobs
