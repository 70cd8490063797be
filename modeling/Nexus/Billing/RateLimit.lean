/-
`services/rate_limit.py`: the token budget. A reservation holds tokens of one
user on one UTC date; the daily row carries what is spent and what is
reserved; a charge is recorded once for each reservation.

Each call is one transaction on the three tables. A statement the database
refuses (an `integer` out of range, a taken primary key) is `none` here: the
transaction aborts, and `_db_strict` or `_db_swallow` says what the caller
sees. The rate-limit log and the in-flight counter are other tables and no
part of the budget.
-/
import Nexus.Base
import Nexus.Lib.Table

namespace Nexus.Billing
open Relational

/-- A row of `token_budget_daily_usage`. -/
structure DailyUsage where
  userId : Uuid
  usageDate : Date
  spentTokens : Nat
  reservedTokens : Nat
  deriving DecidableEq, Repr

abbrev DailyUsage.key (r : DailyUsage) : Uuid × Date := (r.userId, r.usageDate)

/-- A row of `token_budget_reservations`. -/
structure Reservation where
  reservationId : Uuid
  userId : Uuid
  usageDate : Date
  reservedTokens : Nat
  expiresAt : Instant
  deriving DecidableEq, Repr

/-- A row of `token_budget_charges`. -/
structure Charge where
  reservationId : Uuid
  userId : Uuid
  usageDate : Date
  chargedTokens : Nat
  deriving DecidableEq, Repr

structure BudgetDb where
  daily : Table DailyUsage DailyUsage.key
  reservations : Table Reservation Reservation.reservationId
  charges : Table Charge Charge.reservationId

/-- The tables as the migration creates them. -/
def BudgetDb.empty : BudgetDb := ⟨.empty, .empty, .empty⟩

/-- `get_effective_entitlements`, as far as the budget reads it; the period's
ends are already dates. -/
structure Entitlements where
  canUsePlatformLlm : Bool
  platformTokenLimitMonthly : Option Int
  usagePeriodStart : Date
  usagePeriodEnd : Date
  deriving DecidableEq, Repr

def rateLimiterUnavailableMessage : String := "Rate limiting service unavailable"

def Reservation.isOf (user : Uuid) (date : Date) (r : Reservation) : Bool :=
  r.userId == user && r.usageDate == date

def Reservation.expired (now : Instant) (r : Reservation) : Bool := r.expiresAt ≤ now

def Charge.isOf (user : Uuid) (date : Date) (c : Charge) : Bool :=
  c.userId == user && c.usageDate == date

theorem Reservation.isOf_iff {user date} {r : Reservation} :
    r.isOf user date = true ↔ (user, date) = (r.userId, r.usageDate) := by
  rw [Reservation.isOf, Bool.and_eq_true, beq_iff_eq, beq_iff_eq, Prod.mk.injEq, eq_comm, eq_comm (a := date)]

theorem Charge.isOf_iff {user date} {c : Charge} :
    c.isOf user date = true ↔ (user, date) = (c.userId, c.usageDate) := by
  rw [Charge.isOf, Bool.and_eq_true, beq_iff_eq, beq_iff_eq, Prod.mk.injEq, eq_comm, eq_comm (a := date)]

namespace BudgetDb

/-- `UPDATE token_budget_daily_usage SET … WHERE user_id = … AND usage_date = …` -/
def updateDaily (db : BudgetDb) (user : Uuid) (date : Date) (spent reserved : Nat → Nat) : BudgetDb :=
  { db with
    daily := db.daily.updateWhere (fun r => r.key == (user, date)) fun r =>
      { r with spentTokens := spent r.spentTokens, reservedTokens := reserved r.reservedTokens } }

/-- `SET reserved_tokens = GREATEST(reserved_tokens - n, 0)` -/
def subtractReserved (db : BudgetDb) (user : Uuid) (date : Date) (n : Nat) : BudgetDb :=
  db.updateDaily user date id fun reserved => reserved - n

/-- `SET reserved_tokens = reserved_tokens + n` -/
def addReserved (db : BudgetDb) (user : Uuid) (date : Date) (n : Nat) : Option BudgetDb :=
  if (db.daily.find? (user, date)).all fun row => row.reservedTokens + n ≤ integerMax then
    .some (db.updateDaily user date id fun reserved => reserved + n)
  else .none

/-- `SET spent_tokens = spent_tokens + n` -/
def addSpent (db : BudgetDb) (user : Uuid) (date : Date) (n : Nat) : Option BudgetDb :=
  if (db.daily.find? (user, date)).all fun row => row.spentTokens + n ≤ integerMax then
    .some (db.updateDaily user date (fun spent => spent + n) id)
  else .none

def ensureDailyUsageRow (db : BudgetDb) (user : Uuid) (date : Date) : BudgetDb :=
  match db.daily.insert? ⟨user, date, 0, 0⟩ with
  | .some daily => { db with daily }
  | .none => db

/-- `_expire_reservations`: the tokens of the deleted rows, and the rest. -/
def expireReservations (db : BudgetDb) (now : Instant) (user : Uuid) (date : Date) : Nat × BudgetDb :=
  let expired := fun r : Reservation => r.isOf user date && r.expired now
  (db.reservations.sumBy expired (·.reservedTokens),
    { db with reservations := db.reservations.deleteWhere expired })

/-- `_load_budget_totals_for_update`; no caller reads the totals it returns. -/
def loadBudgetTotalsForUpdate (db : BudgetDb) (now : Instant) (user : Uuid) (date : Date) : BudgetDb :=
  let (expiredTotal, swept) := (db.ensureDailyUsageRow user date).expireReservations now user date
  if expiredTotal > 0 then swept.subtractReserved user date expiredTotal else swept

/-- `services/billing.py: get_platform_token_usage` -/
def getPlatformTokenUsage (db : BudgetDb) (user : Uuid) (startDate endDate : Date) : Nat × Nat :=
  let inPeriod := fun r : DailyUsage =>
    r.userId == user && decide (startDate ≤ r.usageDate) && decide (r.usageDate < endDate)
  (db.daily.sumBy inPeriod (·.spentTokens), db.daily.sumBy inPeriod (·.reservedTokens))

/-- The reservation a call names: `WHERE reservation_id = … AND user_id = …`. -/
def findReservation (db : BudgetDb) (user reservationId : Uuid) : Option Reservation :=
  (db.reservations.find? reservationId).filter fun r => r.userId == user

/-- `DELETE FROM token_budget_reservations WHERE reservation_id = … AND user_id = …` -/
def deleteReservation (db : BudgetDb) (user reservationId : Uuid) : BudgetDb :=
  { db with reservations := db.reservations.deleteWhere fun r =>
      r.reservationId == reservationId && r.userId == user }

/-- Deleting a reservation and taking its tokens off the daily row. -/
def returnReservation (db : BudgetDb) (user reservationId : Uuid) (r : Reservation) : BudgetDb :=
  (db.deleteReservation user reservationId).subtractReserved user r.usageDate r.reservedTokens

/-- The two statements that record an accepted reservation. -/
def insertReservation (db : BudgetDb) (now : Instant) (user reservationId : Uuid) (date : Date)
    (tokens ttlSeconds : Nat) : Option BudgetDb := do
  let reservedTokens ← pgInteger tokens
  let seconds ← pgInteger ttlSeconds
  let reservations ← db.reservations.insert?
    ⟨reservationId, user, date, reservedTokens, now + seconds * microsecondsPerSecond⟩
  addReserved { db with reservations } user date tokens

/-- `_insert_token_budget_charge` and the daily row's share of it, unless the
reservation is already charged. -/
def chargeOnce (db : BudgetDb) (user reservationId : Uuid) (date : Date) (tokens : Nat) :
    Option BudgetDb :=
  if (db.charges.find? reservationId).isSome then .some db
  else do
    let chargedTokens ← pgInteger tokens
    let charges ← db.charges.insert? ⟨reservationId, user, date, chargedTokens⟩
    if tokens > 0 then addSpent { db with charges } user date tokens else return { db with charges }

end BudgetDb

/-! ## The calls -/

/-- What the admission check of `reserve_token_budget` decides on the tables it
reads: the reservation exists, the request is refused, or it may be inserted. -/
inductive Admission
  | existing
  | refused (e : ApiError)
  | accepted
  deriving DecidableEq, Repr

/-- `reserve_token_budget`, from the lookup of an existing reservation to the
quota comparison; `swept` are the tables after the sweep. -/
def admission (swept : BudgetDb) (ent : Entitlements) (user reservationId : Uuid) (tokens : Nat) :
    Admission :=
  if (swept.findReservation user reservationId).isSome then .existing
  else if !ent.canUsePlatformLlm then
    .refused ⟨.billingRequired, "Platform LLM access requires an AI tier."⟩
  else
    let (used, reserved) := swept.getPlatformTokenUsage user ent.usagePeriodStart ent.usagePeriodEnd
    match ent.platformTokenLimitMonthly with
    | .none => .accepted
    | .some monthlyLimit =>
      if ((used + reserved + tokens : Nat) : Int) > monthlyLimit then
        .refused ⟨.tokenBudgetExceeded, s!"Monthly AI token quota would be exceeded (used={used}, reserved={reserved}, requested={tokens}, limit={monthlyLimit})"⟩
      else .accepted

/-- `max(int(ttl), 1)` -/
def ttlSeconds (ttl : Int) : Nat := (max ttl 1).toNat

/-- What a call returns, and the tables it leaves. -/
abbrev Outcome := Except ApiError Unit × BudgetDb

/-- `RateLimiter.reserve_token_budget` -/
def reserveTokenBudget (db : BudgetDb) (backendAvailable : Bool) (now : Instant) (ent : Entitlements)
    (user reservationId : Uuid) (estTokens ttl : Int) : Outcome :=
  if !backendAvailable then (.error ⟨.rateLimiterUnavailable, rateLimiterUnavailableMessage⟩, db)
  else if estTokens ≤ 0 then (.ok (), db)
  else
    let tokens := estTokens.toNat
    let date := utcDate now
    let swept := db.loadBudgetTotalsForUpdate now user date
    match admission swept ent user reservationId tokens with
    | .existing => (.ok (), swept)
    -- `db.rollback()`: the sweep is undone with the rest
    | .refused e => (.error e, db)
    | .accepted =>
      match swept.insertReservation now user reservationId date tokens (ttlSeconds ttl) with
      | .some db' => (.ok (), db')
      | .none => (.error ⟨.rateLimiterUnavailable, rateLimiterUnavailableMessage⟩, db)

/-- The statements of `commit_token_budget`. -/
def commitStatements (db : BudgetDb) (now : Instant) (user reservationId : Uuid) (tokens : Nat) :
    Option BudgetDb :=
  -- the reservation is read before the sweep, which may delete its row
  match db.findReservation user reservationId with
  | .some r =>
    ((db.loadBudgetTotalsForUpdate now user r.usageDate).returnReservation user reservationId r).chargeOnce
      user reservationId r.usageDate tokens
  | .none =>
    (db.loadBudgetTotalsForUpdate now user (utcDate now)).chargeOnce user reservationId (utcDate now) tokens

/-- `RateLimiter.commit_token_budget` -/
def commitTokenBudget (db : BudgetDb) (backendAvailable : Bool) (now : Instant) (user reservationId : Uuid)
    (actualTokens : Int) : Outcome :=
  if !backendAvailable then (.ok (), db)
  else (.ok (), (commitStatements db now user reservationId (max actualTokens 0).toNat).getD db)

/-- `RateLimiter.release_token_budget` -/
def releaseTokenBudget (db : BudgetDb) (backendAvailable : Bool) (now : Instant) (user reservationId : Uuid) :
    Outcome :=
  if !backendAvailable then (.ok (), db)
  else match db.findReservation user reservationId with
    | .none => (.ok (), db)
    | .some r =>
      (.ok (), (db.loadBudgetTotalsForUpdate now user r.usageDate).returnReservation user reservationId r)

/-- `RateLimiter.check_token_budget` -/
def checkTokenBudget (db : BudgetDb) (backendAvailable : Bool) (now : Instant) (ent : Entitlements)
    (user : Uuid) : Outcome :=
  if !backendAvailable then (.error ⟨.tokenBudgetExceeded, rateLimiterUnavailableMessage⟩, db)
  else
    let swept := db.loadBudgetTotalsForUpdate now user (utcDate now)
    let (used, reserved) := swept.getPlatformTokenUsage user ent.usagePeriodStart ent.usagePeriodEnd
    -- the sweep is committed before the verdict
    (if !ent.canUsePlatformLlm then .error ⟨.billingRequired, "Platform LLM access requires an AI tier."⟩
     else match ent.platformTokenLimitMonthly with
      | .none => .ok ()
      | .some monthlyLimit =>
        if monthlyLimit ≤ 0 then .error ⟨.tokenBudgetExceeded, "Monthly AI token quota exceeded"⟩
        else if ((used + reserved : Nat) : Int) ≥ monthlyLimit then
          .error ⟨.tokenBudgetExceeded, "Monthly AI token quota exceeded"⟩
        else .ok (), swept)

end Nexus.Billing
