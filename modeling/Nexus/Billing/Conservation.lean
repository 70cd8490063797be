/-
Conservation of the token budget: on every user and date the daily row's
`reserved_tokens` is the sum of the outstanding reservations, and its
`spent_tokens` the sum of the recorded charges.

Each statement of `RateLimit` gets one lemma for each of the four sums, and
the calls are put together from them. Committing or releasing reads its
reservation before the sweep, so a reservation that has expired is taken off
the daily row twice, by the sweep and by the call; `GREATEST(…, 0)` absorbs
the second time only when nothing else is outstanding on that date.
`ReadsLive` is the condition under which that cannot hurt.
-/
import Nexus.Lib.Run
import Nexus.Billing.RateLimit

namespace Nexus.Billing
open Relational Transition

namespace BudgetDb

def reservedOn (db : BudgetDb) (user : Uuid) (date : Date) : Nat :=
  ((db.daily.find? (user, date)).map (·.reservedTokens)).getD 0

def spentOn (db : BudgetDb) (user : Uuid) (date : Date) : Nat :=
  ((db.daily.find? (user, date)).map (·.spentTokens)).getD 0

def outstandingOn (db : BudgetDb) (user : Uuid) (date : Date) : Nat :=
  db.reservations.sumBy (·.isOf user date) (·.reservedTokens)

def expiredOn (db : BudgetDb) (now : Instant) (user : Uuid) (date : Date) : Nat :=
  db.reservations.sumBy (fun r => r.isOf user date && r.expired now) (·.reservedTokens)

def chargedOn (db : BudgetDb) (user : Uuid) (date : Date) : Nat :=
  db.charges.sumBy (·.isOf user date) (·.chargedTokens)

/-- The daily rows say what the reservations and the charges add up to. -/
structure Conserved (db : BudgetDb) : Prop where
  reserved : ∀ user date, db.reservedOn user date = db.outstandingOn user date
  spent : ∀ user date, db.spentOn user date = db.chargedOn user date

theorem Conserved.empty : Conserved .empty := ⟨fun _ _ => rfl, fun _ _ => rfl⟩

/-! ## The daily row -/

theorem find?_updateDaily {db : BudgetDb} {user date spent reserved} (k : Uuid × Date) :
    (db.updateDaily user date spent reserved).daily.find? k = (db.daily.find? k).map fun r =>
      if k = (user, date) then
        { r with spentTokens := spent r.spentTokens, reservedTokens := reserved r.reservedTokens }
      else r := by
  simp only [updateDaily, Table.find?_updateWhere]
  cases h : db.daily.find? k with
  | none => rfl
  | some r =>
    obtain ⟨-, hk⟩ := Table.find?_eq_some.1 h
    simp only [Option.map_some, hk, beq_iff_eq]

theorem reservedOn_updateDaily {db : BudgetDb} {user date spent reserved} {u : Uuid} {d : Date}
    (h : reserved 0 = 0 ∨ (db.daily.find? (user, date)).isSome) :
    (db.updateDaily user date spent reserved).reservedOn u d =
      if (u, d) = (user, date) then reserved (db.reservedOn u d) else db.reservedOn u d := by
  simp only [reservedOn, find?_updateDaily]
  by_cases hk : (u, d) = (user, date)
  · rw [hk]
    cases hf : db.daily.find? (user, date) with
    | none => simp_all
    | some r => simp
  · cases hf : db.daily.find? (u, d) <;> simp [hk]

theorem spentOn_updateDaily {db : BudgetDb} {user date spent reserved} {u : Uuid} {d : Date}
    (h : spent 0 = 0 ∨ (db.daily.find? (user, date)).isSome) :
    (db.updateDaily user date spent reserved).spentOn u d =
      if (u, d) = (user, date) then spent (db.spentOn u d) else db.spentOn u d := by
  simp only [spentOn, find?_updateDaily]
  by_cases hk : (u, d) = (user, date)
  · rw [hk]
    cases hf : db.daily.find? (user, date) with
    | none => simp_all
    | some r => simp
  · cases hf : db.daily.find? (u, d) <;> simp [hk]

@[simp] theorem outstandingOn_updateDaily {db : BudgetDb} {user date spent reserved u d} :
    (db.updateDaily user date spent reserved).outstandingOn u d = db.outstandingOn u d := rfl

@[simp] theorem chargedOn_updateDaily {db : BudgetDb} {user date spent reserved u d} :
    (db.updateDaily user date spent reserved).chargedOn u d = db.chargedOn u d := rfl

@[simp] theorem isSome_updateDaily {db : BudgetDb} {user date spent reserved k} :
    ((db.updateDaily user date spent reserved).daily.find? k).isSome = (db.daily.find? k).isSome := by
  rw [find?_updateDaily, Option.isSome_map]

@[simp] theorem subtractReserved_zero {db : BudgetDb} {user date} : db.subtractReserved user date 0 = db := by
  have h : (db.subtractReserved user date 0).daily = db.daily :=
    Table.updateWhere_eq_self (fun _ => rfl) fun _ _ _ => rfl
  show { db with daily := (db.subtractReserved user date 0).daily } = db
  rw [h]

theorem reservedOn_subtractReserved {db : BudgetDb} {user date n} (u : Uuid) (d : Date) :
    (db.subtractReserved user date n).reservedOn u d =
      if (u, d) = (user, date) then db.reservedOn u d - n else db.reservedOn u d :=
  reservedOn_updateDaily (.inl (Nat.zero_sub n))

@[simp] theorem spentOn_subtractReserved {db : BudgetDb} {user date n} (u : Uuid) (d : Date) :
    (db.subtractReserved user date n).spentOn u d = db.spentOn u d := by
  rw [subtractReserved, spentOn_updateDaily (.inl rfl)]
  exact ite_self _

theorem addReserved_eq_some {db db' : BudgetDb} {user date n} (h : db.addReserved user date n = .some db') :
    db' = db.updateDaily user date id fun reserved => reserved + n := by
  simp only [addReserved, Option.ite_none_right_eq_some, Option.some.injEq] at h
  exact h.2.symm

theorem addSpent_eq_some {db db' : BudgetDb} {user date n} (h : db.addSpent user date n = .some db') :
    db' = db.updateDaily user date (fun spent => spent + n) id := by
  simp only [addSpent, Option.ite_none_right_eq_some, Option.some.injEq] at h
  exact h.2.symm

/-! ## The sweep -/

theorem find?_ensureDailyUsageRow {db : BudgetDb} {user date} (k : Uuid × Date) :
    (db.ensureDailyUsageRow user date).daily.find? k =
      if (user, date) = k then .some ((db.daily.find? k).getD ⟨user, date, 0, 0⟩) else db.daily.find? k := by
  unfold ensureDailyUsageRow
  split
  next daily h =>
    obtain ⟨hn, -⟩ := Table.insert?_eq_some.1 h
    rw [Table.find?_insert? h]
    by_cases hk : (user, date) = k
    · subst hk; simp [hn]
    · simp [hk]
  next h =>
    obtain ⟨r, hr⟩ := Table.insert?_eq_none.1 h
    by_cases hk : (user, date) = k
    · subst hk; simp [hr]
    · simp [hk]

@[simp] theorem reservations_ensureDailyUsageRow {db : BudgetDb} {user date} :
    (db.ensureDailyUsageRow user date).reservations = db.reservations := by
  unfold ensureDailyUsageRow; split <;> rfl

@[simp] theorem charges_ensureDailyUsageRow {db : BudgetDb} {user date} :
    (db.ensureDailyUsageRow user date).charges = db.charges := by
  unfold ensureDailyUsageRow; split <;> rfl

@[simp] theorem reservedOn_ensureDailyUsageRow (db : BudgetDb) (user : Uuid) (date : Date) (u : Uuid) (d : Date) :
    (db.ensureDailyUsageRow user date).reservedOn u d = db.reservedOn u d := by
  simp only [reservedOn, find?_ensureDailyUsageRow]
  split
  · cases db.daily.find? (u, d) <;> rfl
  · rfl

@[simp] theorem spentOn_ensureDailyUsageRow (db : BudgetDb) (user : Uuid) (date : Date) (u : Uuid) (d : Date) :
    (db.ensureDailyUsageRow user date).spentOn u d = db.spentOn u d := by
  simp only [spentOn, find?_ensureDailyUsageRow]
  split
  · cases db.daily.find? (u, d) <;> rfl
  · rfl

theorem loadBudgetTotalsForUpdate_eq {db : BudgetDb} {now user date} :
    db.loadBudgetTotalsForUpdate now user date =
      subtractReserved { db.ensureDailyUsageRow user date with
          reservations := db.reservations.deleteWhere fun r => r.isOf user date && r.expired now }
        user date (db.expiredOn now user date) := by
  simp only [loadBudgetTotalsForUpdate, expireReservations, reservations_ensureDailyUsageRow]
  by_cases h : db.expiredOn now user date > 0
  · exact if_pos h
  · have h0 : db.expiredOn now user date = 0 := Nat.eq_zero_of_not_pos h
    rw [h0, subtractReserved_zero]
    exact if_neg h

@[simp] theorem reservations_load {db : BudgetDb} {now user date} :
    (db.loadBudgetTotalsForUpdate now user date).reservations =
      db.reservations.deleteWhere fun r => r.isOf user date && r.expired now := by
  rw [loadBudgetTotalsForUpdate_eq]; rfl

@[simp] theorem charges_load {db : BudgetDb} {now user date} :
    (db.loadBudgetTotalsForUpdate now user date).charges = db.charges := by
  rw [loadBudgetTotalsForUpdate_eq]; exact charges_ensureDailyUsageRow

theorem reservedOn_load {db : BudgetDb} {now user date} (u : Uuid) (d : Date) :
    (db.loadBudgetTotalsForUpdate now user date).reservedOn u d =
      if (u, d) = (user, date) then db.reservedOn u d - db.expiredOn now user date else db.reservedOn u d := by
  rw [loadBudgetTotalsForUpdate_eq, reservedOn_subtractReserved,
    ← reservedOn_ensureDailyUsageRow db user date]
  rfl

@[simp] theorem spentOn_load {db : BudgetDb} {now user date} (u : Uuid) (d : Date) :
    (db.loadBudgetTotalsForUpdate now user date).spentOn u d = db.spentOn u d := by
  rw [loadBudgetTotalsForUpdate_eq, spentOn_subtractReserved,
    ← spentOn_ensureDailyUsageRow db user date]
  rfl

theorem isSome_load {db : BudgetDb} {now user date} :
    ((db.loadBudgetTotalsForUpdate now user date).daily.find? (user, date)).isSome = true := by
  rw [loadBudgetTotalsForUpdate_eq, subtractReserved, isSome_updateDaily, find?_ensureDailyUsageRow]
  simp

theorem outstandingOn_load (db : BudgetDb) (now : Instant) (user : Uuid) (date : Date) (u : Uuid) (d : Date) :
    (db.loadBudgetTotalsForUpdate now user date).outstandingOn u d +
      (if (u, d) = (user, date) then db.expiredOn now user date else 0) = db.outstandingOn u d := by
  have h := db.reservations.sumBy_deleteWhere_add (fun r => r.isOf user date && r.expired now)
    (·.isOf u d) (·.reservedTokens)
  rw [outstandingOn, outstandingOn, reservations_load, ← h]
  congr 1
  split
  · rename_i hk
    simp only [Prod.mk.injEq] at hk
    obtain ⟨rfl, rfl⟩ := hk
    exact Table.sumBy_congr fun r _ => by cases r.isOf u d <;> simp
  · rename_i hk
    refine (Table.sumBy_eq_zero fun r _ hr => ?_).symm
    simp only [Bool.and_eq_true, Reservation.isOf_iff] at hr
    exact absurd (hr.1.trans hr.2.1.symm) hk

theorem Conserved.load {db : BudgetDb} (h : db.Conserved) (now user date) :
    (db.loadBudgetTotalsForUpdate now user date).Conserved := by
  refine ⟨fun u d => ?_, fun u d => ?_⟩
  · have ho := outstandingOn_load db now user date u d
    have hr := h.reserved u d
    rw [reservedOn_load]
    split at ho
    · rename_i hk
      rw [if_pos hk]; omega
    · rename_i hk
      rw [if_neg hk]; omega
  · rw [spentOn_load, h.spent]
    simp only [chargedOn, charges_load]

/-! ## Returning a reservation -/

theorem findReservation_eq_some {db : BudgetDb} {user reservationId r} :
    db.findReservation user reservationId = .some r ↔
      r ∈ db.reservations.rows ∧ r.reservationId = reservationId ∧ r.userId = user := by
  simp only [findReservation, Option.filter_eq_some_iff, Table.find?_eq_some, beq_iff_eq, and_assoc]

theorem findReservation_eq_none {db : BudgetDb} {user reservationId} :
    db.findReservation user reservationId = .none ↔
      ∀ r ∈ db.reservations.rows, r.reservationId = reservationId → r.userId ≠ user := by
  simp only [Option.eq_none_iff_forall_ne_some, ne_eq, findReservation_eq_some, not_and]

theorem reservations_returnReservation {db : BudgetDb} {user reservationId r} :
    (db.returnReservation user reservationId r).reservations =
      (db.deleteReservation user reservationId).reservations := rfl

@[simp] theorem charges_returnReservation {db : BudgetDb} {user reservationId r} :
    (db.returnReservation user reservationId r).charges = db.charges := rfl

theorem reservedOn_returnReservation {db : BudgetDb} {user reservationId r} (u : Uuid) (d : Date) :
    (db.returnReservation user reservationId r).reservedOn u d =
      if (u, d) = (user, r.usageDate) then db.reservedOn u d - r.reservedTokens else db.reservedOn u d := by
  rw [returnReservation, reservedOn_subtractReserved]; rfl

@[simp] theorem spentOn_returnReservation {db : BudgetDb} {user reservationId r} (u : Uuid) (d : Date) :
    (db.returnReservation user reservationId r).spentOn u d = db.spentOn u d := by
  rw [returnReservation, spentOn_subtractReserved]; rfl

theorem outstandingOn_returnReservation_of_some {db : BudgetDb} {user reservationId r}
    (h : db.findReservation user reservationId = .some r) (u : Uuid) (d : Date) :
    (db.returnReservation user reservationId r).outstandingOn u d +
      (if (u, d) = (user, r.usageDate) then r.reservedTokens else 0) = db.outstandingOn u d := by
  obtain ⟨hr, hid, huser⟩ := findReservation_eq_some.1 h
  have hadd := db.reservations.sumBy_deleteWhere_add
    (fun r => r.reservationId == reservationId && r.userId == user) (·.isOf u d) (·.reservedTokens)
  have hkey := Table.sumBy_key (t := db.reservations) (k := reservationId) (w := (·.reservedTokens))
    (p := fun r => r.isOf u d && (r.reservationId == reservationId && r.userId == user)) fun r _ hp => by
      simp only [Bool.and_eq_true, beq_iff_eq] at hp
      exact hp.2.1
  rw [Table.find?_eq_some.2 ⟨hr, hid⟩] at hkey
  rw [hkey] at hadd
  have hiff : (r.isOf u d && (r.reservationId == reservationId && r.userId == user)) = true ↔
      (u, d) = (user, r.usageDate) := by
    rw [Bool.and_eq_true, Reservation.isOf_iff, huser, hid]
    simp
  simp only [hiff] at hadd
  exact hadd

theorem outstandingOn_returnReservation_of_none {db : BudgetDb} {user reservationId r}
    (h : db.findReservation user reservationId = .none) (u : Uuid) (d : Date) :
    (db.returnReservation user reservationId r).outstandingOn u d = db.outstandingOn u d := by
  have hadd := db.reservations.sumBy_deleteWhere_add
    (fun r => r.reservationId == reservationId && r.userId == user) (·.isOf u d) (·.reservedTokens)
  have h0 := Table.sumBy_eq_zero (t := db.reservations) (w := (·.reservedTokens))
    (p := fun r => r.isOf u d && (r.reservationId == reservationId && r.userId == user)) fun r hr hp => by
      simp only [Bool.and_eq_true, beq_iff_eq] at hp
      exact absurd hp.2.2 (findReservation_eq_none.1 h r hr hp.2.1)
  rw [h0] at hadd
  exact hadd

/-- Returning a reservation keeps the sums when its row is there, and when
nothing is outstanding on its date. -/
theorem Conserved.returnReservation {db : BudgetDb} (h : db.Conserved) {user reservationId r}
    (hr : db.findReservation user reservationId = .some r ∨
      (db.findReservation user reservationId = .none ∧ db.outstandingOn user r.usageDate = 0)) :
    (db.returnReservation user reservationId r).Conserved := by
  refine ⟨fun u d => ?_, fun u d => ?_⟩
  · have hc := h.reserved u d
    rw [reservedOn_returnReservation]
    rcases hr with hr | ⟨hr, h0⟩
    · have ho := outstandingOn_returnReservation_of_some hr u d
      split at ho
      · rename_i hk
        rw [if_pos hk]; omega
      · rename_i hk
        rw [if_neg hk]; omega
    · rw [outstandingOn_returnReservation_of_none hr]
      split
      · rename_i hk
        simp only [Prod.mk.injEq] at hk
        obtain ⟨rfl, rfl⟩ := hk
        omega
      · exact hc
  · rw [spentOn_returnReservation, h.spent]; rfl

/-! ## Recording a reservation and a charge -/

theorem insertReservation_eq_some {db db' : BudgetDb} {now user reservationId date tokens ttlSeconds}
    (h : db.insertReservation now user reservationId date tokens ttlSeconds = .some db') :
    ∃ reservations, db.reservations.insert? ⟨reservationId, user, date, tokens,
        now + ttlSeconds * microsecondsPerSecond⟩ = .some reservations ∧
      db' = updateDaily { db with reservations } user date id fun reserved => reserved + tokens := by
  simp only [insertReservation, Option.bind_eq_bind, Option.bind_eq_some_iff, pgInteger_eq_some] at h
  obtain ⟨_, ⟨-, rfl⟩, _, ⟨-, rfl⟩, reservations, hins, hadd⟩ := h
  exact ⟨reservations, hins, addReserved_eq_some hadd⟩

theorem Conserved.insertReservation {db db' : BudgetDb} (h : db.Conserved)
    {now user reservationId date tokens ttlSeconds}
    (hrow : (db.daily.find? (user, date)).isSome = true)
    (hi : db.insertReservation now user reservationId date tokens ttlSeconds = .some db') : db'.Conserved := by
  obtain ⟨reservations, hins, rfl⟩ := insertReservation_eq_some hi
  refine ⟨fun u d => ?_, fun u d => ?_⟩
  · have hsum := Table.sumBy_insert? hins (·.isOf u d) (·.reservedTokens)
    have hrow : ((BudgetDb.mk db.daily reservations db.charges).daily.find? (user, date)).isSome = true := hrow
    rw [reservedOn_updateDaily (.inr hrow), outstandingOn_updateDaily]
    have hc : BudgetDb.reservedOn { db with reservations } u d = db.outstandingOn u d := h.reserved u d
    simp only [Reservation.isOf_iff] at hsum
    show _ = reservations.sumBy _ _
    rw [hsum, hc]
    split
    · exact Nat.add_comm _ _
    · exact (Nat.zero_add _).symm
  · rw [spentOn_updateDaily (.inl rfl)]
    exact (ite_self _).trans (h.spent u d)

theorem chargeOnce_eq_some {db db' : BudgetDb} {user reservationId date tokens}
    (h : db.chargeOnce user reservationId date tokens = .some db') :
    db' = db ∨ ∃ charges, db.charges.insert? ⟨reservationId, user, date, tokens⟩ = .some charges ∧
      db' = updateDaily { db with charges } user date (fun spent => spent + tokens) id := by
  unfold chargeOnce at h
  split at h
  · exact .inl (Option.some.inj h).symm
  · simp only [Option.bind_eq_bind, Option.bind_eq_some_iff, pgInteger_eq_some] at h
    obtain ⟨_, ⟨-, rfl⟩, charges, hins, h⟩ := h
    refine .inr ⟨charges, hins, ?_⟩
    split at h
    · exact addSpent_eq_some h
    · rename_i h0
      have h0 : tokens = 0 := Nat.eq_zero_of_not_pos h0
      subst h0
      rw [← Option.some.inj h]
      exact subtractReserved_zero.symm

theorem Conserved.chargeOnce_iff {db db' : BudgetDb} {user reservationId date tokens}
    (hrow : (db.daily.find? (user, date)).isSome = true)
    (hc : db.chargeOnce user reservationId date tokens = .some db') : db'.Conserved ↔ db.Conserved := by
  rcases chargeOnce_eq_some hc with rfl | ⟨charges, hins, rfl⟩
  · exact Iff.rfl
  · have hreserved : ∀ u d, (updateDaily { db with charges } user date (fun spent => spent + tokens)
        id).reservedOn u d = db.reservedOn u d := fun u d => by
      rw [reservedOn_updateDaily (.inl rfl)]
      exact ite_self _
    have hspent : ∀ u d, (updateDaily { db with charges } user date (fun spent => spent + tokens)
        id).spentOn u d = if (u, d) = (user, date) then db.spentOn u d + tokens else db.spentOn u d := fun u d => by
      have hrow : ((BudgetDb.mk db.daily db.reservations charges).daily.find? (user, date)).isSome = true := hrow
      rw [spentOn_updateDaily (.inr hrow)]; rfl
    have hcharged : ∀ u d, (updateDaily { db with charges } user date (fun spent => spent + tokens)
        id).chargedOn u d = if (u, d) = (user, date) then db.chargedOn u d + tokens else db.chargedOn u d :=
      fun u d => by
        have hsum := Table.sumBy_insert? hins (·.isOf u d) (·.chargedTokens)
        simp only [Charge.isOf_iff] at hsum
        rw [chargedOn_updateDaily]
        refine hsum.trans ?_
        split
        · exact Nat.add_comm _ _
        · exact Nat.zero_add _
    refine ⟨fun h => ⟨fun u d => ?_, fun u d => ?_⟩, fun h => ⟨fun u d => ?_, fun u d => ?_⟩⟩
    · rw [← hreserved u d, h.reserved]; rfl
    · have hs := h.spent u d
      rw [hspent, hcharged] at hs
      split at hs <;> omega
    · rw [hreserved, h.reserved]; rfl
    · rw [hspent, hcharged, h.spent]

/-- The charge is recorded already, or it fits the columns that take it. -/
def chargeFits (db : BudgetDb) (user reservationId : Uuid) (date : Date) (tokens : Nat) : Bool :=
  (db.charges.find? reservationId).isSome ||
    (decide (tokens ≤ integerMax) && (tokens == 0 || decide (db.spentOn user date + tokens ≤ integerMax)))

theorem isSome_chargeOnce {db : BudgetDb} {user reservationId date tokens}
    (hrow : (db.daily.find? (user, date)).isSome = true) :
    (db.chargeOnce user reservationId date tokens).isSome = db.chargeFits user reservationId date tokens := by
  obtain ⟨row, hrow⟩ := Option.isSome_iff_exists.1 hrow
  cases hc : db.charges.find? reservationId with
  | some c => simp [chargeOnce, chargeFits, hc]
  | none =>
    have hins : ∀ c : Charge, c.reservationId = reservationId → ∃ charges, db.charges.insert? c = .some charges := by
      rintro c rfl
      cases hi : db.charges.insert? c with
      | some charges => exact ⟨charges, rfl⟩
      | none =>
        obtain ⟨b, hb⟩ := Table.insert?_eq_none.1 hi
        rw [hc] at hb; cases hb
    obtain ⟨charges, hins⟩ := hins ⟨reservationId, user, date, tokens⟩ rfl
    have hspent : db.spentOn user date = row.spentTokens := by rw [spentOn, hrow]; rfl
    simp only [chargeOnce, chargeFits, hc, hspent, Option.isSome_none, Bool.false_eq_true, if_false,
      Bool.false_or, pgInteger]
    by_cases hmax : tokens ≤ integerMax
    · simp only [hmax, if_true, Option.bind_eq_bind, Option.bind_some, hins, decide_true, Bool.true_and]
      rcases Nat.eq_zero_or_pos tokens with rfl | hp
      · rfl
      · have hne : (tokens == 0) = false := by simp; omega
        rw [if_pos hp, addSpent, hrow, hne, Bool.false_or]
        simp only [Option.all_some]
        split <;> simp_all
    · simp [hmax]

/-! ## Settling a reservation that was read before the sweep -/

/-- The reservation a call reads has not expired, or nothing unexpired is
outstanding next to it. -/
def settlesSafely (db : BudgetDb) (now : Instant) (user reservationId : Uuid) : Bool :=
  (db.findReservation user reservationId).all fun r =>
    !r.expired now || db.reservations.rows.all fun other => !other.isOf user r.usageDate || other.expired now

theorem findReservation_load {db : BudgetDb} (now : Instant) {user reservationId r}
    (h : db.findReservation user reservationId = .some r) :
    (db.loadBudgetTotalsForUpdate now user r.usageDate).findReservation user reservationId =
      if r.expired now = true then .none else .some r := by
  obtain ⟨hr, hid, huser⟩ := findReservation_eq_some.1 h
  have hof : r.isOf user r.usageDate = true := Reservation.isOf_iff.2 (by rw [huser])
  by_cases he : r.expired now = true
  · rw [if_pos he, findReservation_eq_none, reservations_load]
    intro r' hr' hid' _
    obtain ⟨hm, hkeep⟩ := Table.mem_deleteWhere.1 hr'
    have hsame : r' = r := Table.eq_of_key hm hr (hid'.trans hid.symm)
    rw [hsame, hof, he] at hkeep
    cases hkeep
  · rw [if_neg he, findReservation_eq_some, reservations_load]
    exact ⟨Table.mem_deleteWhere.2 ⟨hr, by simp [he]⟩, hid, huser⟩

theorem outstandingOn_load_eq_zero {db : BudgetDb} {now user date}
    (h : ∀ r ∈ db.reservations.rows, r.isOf user date = true → r.expired now = true) :
    (db.loadBudgetTotalsForUpdate now user date).outstandingOn user date = 0 := by
  rw [outstandingOn, reservations_load]
  refine Table.sumBy_eq_zero fun r hr hof => ?_
  obtain ⟨hm, hkeep⟩ := Table.mem_deleteWhere.1 hr
  rw [hof, h r hm hof] at hkeep
  cases hkeep

/-- Every outstanding reservation holds some tokens. -/
def Positive (db : BudgetDb) : Prop := ∀ r ∈ db.reservations.rows, 0 < r.reservedTokens

/-- **Settling keeps the sums exactly when it is safe.** An expired
reservation is subtracted twice, and something live on its date pays. -/
theorem Conserved.settle_iff {db : BudgetDb} (h : db.Conserved) (hpos : db.Positive) {now user reservationId r}
    (hr : db.findReservation user reservationId = .some r) :
    ((db.loadBudgetTotalsForUpdate now user r.usageDate).returnReservation user reservationId r).Conserved ↔
      db.settlesSafely now user reservationId = true := by
  have hload := h.load now user r.usageDate
  have hfind := findReservation_load now hr
  simp only [settlesSafely, hr, Option.all_some, Bool.or_eq_true, Bool.not_eq_true', List.all_eq_true]
  by_cases he : r.expired now = true
  · rw [if_pos he] at hfind
    refine ⟨fun hc => .inr fun r' hr' => ?_, fun hsafe => ?_⟩
    · by_cases hof : r'.isOf user r.usageDate = true
      · by_cases he' : r'.expired now = true
        · exact .inr he'
        · exfalso
          have hre := hc.reserved user r.usageDate
          rw [reservedOn_returnReservation, if_pos rfl, outstandingOn_returnReservation_of_none hfind,
            hload.reserved] at hre
          have hle : r'.reservedTokens ≤
              (db.loadBudgetTotalsForUpdate now user r.usageDate).outstandingOn user r.usageDate := by
            rw [outstandingOn, reservations_load]
            exact Table.le_sumBy (Table.mem_deleteWhere.2 ⟨hr', by simp [he']⟩) hof
          have hp := hpos r' hr'
          have hpr := hpos r (findReservation_eq_some.1 hr).1
          omega
      · exact .inl (by simpa using hof)
    · rcases hsafe with hlive | hall
      · rw [he] at hlive; cases hlive
      · refine hload.returnReservation (.inr ⟨hfind, outstandingOn_load_eq_zero fun r' hr' hof => ?_⟩)
        rcases hall r' hr' with hn | he'
        · rw [hof] at hn; cases hn
        · exact he'
  · rw [if_neg he] at hfind
    exact ⟨fun _ => .inl (by simpa using he), fun _ => hload.returnReservation (.inl hfind)⟩

/-! ## What each call does to the tables -/

theorem Positive.load {db : BudgetDb} (h : db.Positive) (now user date) :
    (db.loadBudgetTotalsForUpdate now user date).Positive := by
  intro r hr
  rw [reservations_load] at hr
  exact h r (Table.mem_deleteWhere.1 hr).1

theorem Positive.returnReservation {db : BudgetDb} (h : db.Positive) (user reservationId r) :
    (db.returnReservation user reservationId r).Positive :=
  fun _ hr => h _ (Table.mem_deleteWhere.1 hr).1

theorem Positive.chargeOnce {db db' : BudgetDb} (h : db.Positive) {user reservationId date tokens}
    (hc : db.chargeOnce user reservationId date tokens = .some db') : db'.Positive := by
  rcases chargeOnce_eq_some hc with rfl | ⟨_, _, rfl⟩
  · exact h
  · exact h

theorem Positive.insertReservation {db db' : BudgetDb} (h : db.Positive)
    {now user reservationId date tokens ttlSeconds} (ht : 0 < tokens)
    (hi : db.insertReservation now user reservationId date tokens ttlSeconds = .some db') : db'.Positive := by
  obtain ⟨reservations, hins, rfl⟩ := insertReservation_eq_some hi
  intro r hr
  have hrows := (Table.insert?_eq_some.1 hins).2
  have hr : r ∈ reservations.rows := hr
  rw [hrows] at hr
  rcases List.mem_cons.1 hr with rfl | hr
  · exact ht
  · exact h r hr

/-- A reserve leaves the tables alone, sweeps them, or sweeps them and records
the reservation. -/
theorem reserve_cases (db : BudgetDb) (backendAvailable : Bool) (now : Instant) (ent : Entitlements)
    (user reservationId : Uuid) (estTokens ttl : Int) :
    (reserveTokenBudget db backendAvailable now ent user reservationId estTokens ttl).2 = db ∨
    (reserveTokenBudget db backendAvailable now ent user reservationId estTokens ttl).2 =
      db.loadBudgetTotalsForUpdate now user (utcDate now) ∨
    (0 < estTokens.toNat ∧ (db.loadBudgetTotalsForUpdate now user (utcDate now)).insertReservation now user
      reservationId (utcDate now) estTokens.toNat (ttlSeconds ttl) =
        .some (reserveTokenBudget db backendAvailable now ent user reservationId estTokens ttl).2) := by
  unfold reserveTokenBudget
  split
  · exact .inl rfl
  · split
    · exact .inl rfl
    · rename_i hpos
      have hpos : 0 < estTokens.toNat := by omega
      dsimp only
      split
      · exact .inr (.inl rfl)
      · exact .inl rfl
      · split
        next db' h => exact .inr (.inr ⟨hpos, h⟩)
        next => exact .inl rfl

theorem Conserved.reserve {db : BudgetDb} (h : db.Conserved) (backendAvailable now ent user reservationId estTokens ttl) :
    (reserveTokenBudget db backendAvailable now ent user reservationId estTokens ttl).2.Conserved := by
  rcases reserve_cases db backendAvailable now ent user reservationId estTokens ttl with he | he | ⟨-, he⟩
  · rw [he]; exact h
  · rw [he]; exact h.load _ _ _
  · exact (h.load _ _ _).insertReservation isSome_load he

theorem Positive.reserve {db : BudgetDb} (h : db.Positive) (backendAvailable now ent user reservationId estTokens ttl) :
    (reserveTokenBudget db backendAvailable now ent user reservationId estTokens ttl).2.Positive := by
  rcases reserve_cases db backendAvailable now ent user reservationId estTokens ttl with he | he | ⟨ht, he⟩
  · rw [he]; exact h
  · rw [he]; exact h.load _ _ _
  · exact (h.load _ _ _).insertReservation ht he

theorem check_cases (db : BudgetDb) (backendAvailable : Bool) (now : Instant) (ent : Entitlements) (user : Uuid) :
    (checkTokenBudget db backendAvailable now ent user).2 = db ∨
    (checkTokenBudget db backendAvailable now ent user).2 =
      db.loadBudgetTotalsForUpdate now user (utcDate now) := by
  unfold checkTokenBudget
  split
  · exact .inl rfl
  · exact .inr rfl

theorem isSome_returnReservation {db : BudgetDb} {now user reservationId r} :
    (((db.loadBudgetTotalsForUpdate now user r.usageDate).returnReservation user reservationId r).daily.find?
      (user, r.usageDate)).isSome = true := by
  rw [returnReservation, subtractReserved, isSome_updateDaily]
  exact isSome_load

def settledDate (db : BudgetDb) (now : Instant) (user reservationId : Uuid) : Date :=
  ((db.findReservation user reservationId).map (·.usageDate)).getD (utcDate now)

theorem isSome_commitStatements (db : BudgetDb) (now : Instant) (user reservationId : Uuid) (tokens : Nat) :
    (commitStatements db now user reservationId tokens).isSome =
      db.chargeFits user reservationId (db.settledDate now user reservationId) tokens := by
  unfold commitStatements settledDate
  split
  next r hr =>
    rw [isSome_chargeOnce isSome_returnReservation, hr]
    simp [chargeFits]
  next hn =>
    rw [isSome_chargeOnce isSome_load, hn]
    simp [chargeFits]

theorem commitStatements_conserved_iff {db db' : BudgetDb} (h : db.Conserved) (hpos : db.Positive)
    {now user reservationId tokens} (hc : commitStatements db now user reservationId tokens = .some db') :
    db'.Conserved ↔ db.settlesSafely now user reservationId = true := by
  unfold commitStatements at hc
  split at hc
  next r hr => exact (Conserved.chargeOnce_iff isSome_returnReservation hc).trans (h.settle_iff hpos hr)
  next hn =>
    have hsafe : db.settlesSafely now user reservationId = true := by rw [settlesSafely, hn]; rfl
    exact (Conserved.chargeOnce_iff isSome_load hc).trans (iff_of_true (h.load _ _ _) hsafe)

theorem Positive.commitStatements {db db' : BudgetDb} (h : db.Positive) {now user reservationId tokens}
    (hc : commitStatements db now user reservationId tokens = .some db') : db'.Positive := by
  unfold Billing.commitStatements at hc
  split at hc
  · exact ((h.load _ _ _).returnReservation _ _ _).chargeOnce hc
  · exact (h.load _ _ _).chargeOnce hc

end BudgetDb

/-! ## Runs of calls -/

inductive BudgetCall
  | reserve (user reservationId : Uuid) (estTokens ttl : Int)
  | commit (user reservationId : Uuid) (actualTokens : Int)
  | release (user reservationId : Uuid)
  | check (user : Uuid)

/-- A serialized call: its clock, whether the limiter has a database, and what
the user is entitled to when it runs. -/
structure BudgetEvent where
  now : Instant
  backendAvailable : Bool
  entitlements : Entitlements
  call : BudgetCall

def BudgetEvent.run (e : BudgetEvent) (db : BudgetDb) : Outcome :=
  match e.call with
  | .reserve user reservationId estTokens ttl =>
    reserveTokenBudget db e.backendAvailable e.now e.entitlements user reservationId estTokens ttl
  | .commit user reservationId actualTokens =>
    commitTokenBudget db e.backendAvailable e.now user reservationId actualTokens
  | .release user reservationId => releaseTokenBudget db e.backendAvailable e.now user reservationId
  | .check user => checkTokenBudget db e.backendAvailable e.now e.entitlements user

structure BudgetState where
  clock : Instant
  db : BudgetDb

/-- One call after the other, with a clock that does not run backwards. -/
def BudgetState.next (s : BudgetState) (e : BudgetEvent) : Option BudgetState :=
  if s.clock ≤ e.now then .some ⟨e.now, (e.run s.db).2⟩ else .none

def budgetSystem : System BudgetState BudgetEvent := .ofFun (fun s => s.db = .empty) BudgetState.next

theorem BudgetState.next_db {s t : BudgetState} {e} (h : s.next e = .some t) : t.db = (e.run s.db).2 := by
  simp only [next, Option.ite_none_right_eq_some, Option.some.injEq] at h
  rw [← h.2]

/-- A commit or release that takes effect reads a reservation that has not
expired, or one with nothing unexpired next to it. -/
def BudgetEvent.settlesSafely (e : BudgetEvent) (db : BudgetDb) : Bool :=
  !e.backendAvailable || match e.call with
  | .commit user reservationId actualTokens =>
    db.settlesSafely e.now user reservationId ||
      !db.chargeFits user reservationId (db.settledDate e.now user reservationId) (max actualTokens 0).toNat
  | .release user reservationId => db.settlesSafely e.now user reservationId
  | .reserve .. | .check _ => true

theorem BudgetEvent.positive {e : BudgetEvent} {db : BudgetDb} (h : db.Positive) : (e.run db).2.Positive := by
  obtain ⟨now, backendAvailable, ent, call⟩ := e
  cases call with
  | reserve => exact h.reserve _ _ _ _ _ _ _
  | check user =>
    rcases BudgetDb.check_cases db backendAvailable now ent user with he | he
    · simp only [run, he]; exact h
    · simp only [run, he]; exact h.load _ _ _
  | commit user reservationId actualTokens =>
    simp only [run, commitTokenBudget]
    split
    · exact h
    · cases hc : commitStatements db now user reservationId (max actualTokens 0).toNat with
      | none => exact h
      | some db' => exact h.commitStatements hc
  | release user reservationId =>
    simp only [run, releaseTokenBudget]
    split
    · exact h
    · split
      · exact h
      · exact (h.load _ _ _).returnReservation _ _ _

theorem BudgetEvent.conserved_iff {e : BudgetEvent} {db : BudgetDb} (h : db.Conserved) (hpos : db.Positive) :
    (e.run db).2.Conserved ↔ e.settlesSafely db = true := by
  obtain ⟨now, backendAvailable, ent, call⟩ := e
  cases call with
  | reserve => exact iff_of_true (h.reserve _ _ _ _ _ _ _) (by simp [settlesSafely])
  | check user =>
    refine iff_of_true ?_ (by simp [settlesSafely])
    rcases BudgetDb.check_cases db backendAvailable now ent user with he | he
    · simp only [run, he]; exact h
    · simp only [run, he]; exact h.load _ _ _
  | commit user reservationId actualTokens =>
    cases backendAvailable with
    | false => exact iff_of_true h (by simp [settlesSafely])
    | true =>
      have hfits := BudgetDb.isSome_commitStatements db now user reservationId (max actualTokens 0).toNat
      simp only [run, commitTokenBudget, settlesSafely, ← hfits]
      cases hc : commitStatements db now user reservationId (max actualTokens 0).toNat with
      | none => exact iff_of_true h (by simp)
      | some db' =>
        have hiff := BudgetDb.commitStatements_conserved_iff h hpos hc
        simpa using hiff
  | release user reservationId =>
    cases backendAvailable with
    | false => exact iff_of_true h (by simp [settlesSafely])
    | true =>
      simp only [run, releaseTokenBudget, settlesSafely, Bool.not_true, Bool.false_eq_true, if_false,
        Bool.false_or]
      split
      next hn => exact iff_of_true h (by rw [BudgetDb.settlesSafely, hn]; rfl)
      next r hr => exact h.settle_iff hpos hr

/-- What the other unexpired reservations of a user and date hold. -/
def BudgetDb.heldByOthers (db : BudgetDb) (now : Instant) (reservationId user : Uuid) (date : Date) : Nat :=
  db.reservations.sumBy (fun r => r.isOf user date && !r.expired now && r.reservationId != reservationId)
    (·.reservedTokens)

/-- A commit or release leaves at least what the other live reservations hold
reserved, on every user and date. -/
def KeepsOthers (s : BudgetState) (e : BudgetEvent) (t : BudgetState) : Prop :=
  match e.call with
  | .commit _ reservationId _ | .release _ reservationId =>
    ∀ user date, s.db.heldByOthers e.now reservationId user date ≤ t.db.reservedOn user date
  | .reserve .. | .check _ => True

/-- The reservations a settling call leaves: all of them, those a sweep leaves,
or those a sweep leaves but the settled one. -/
def BudgetDb.Settled (db : BudgetDb) (now : Instant) (owner reservationId : Uuid) (db' : BudgetDb) : Prop :=
  db'.reservations = db.reservations ∨ ∃ date,
    db'.reservations = (db.loadBudgetTotalsForUpdate now owner date).reservations ∨
    db'.reservations =
      ((db.loadBudgetTotalsForUpdate now owner date).deleteReservation owner reservationId).reservations

theorem BudgetDb.reservations_chargeOnce {db db' : BudgetDb} {user reservationId date tokens}
    (h : db.chargeOnce user reservationId date tokens = .some db') : db'.reservations = db.reservations := by
  rcases chargeOnce_eq_some h with rfl | ⟨_, _, rfl⟩ <;> rfl

theorem BudgetDb.Settled.commit (db : BudgetDb) (backendAvailable : Bool) (now : Instant)
    (owner reservationId : Uuid) (actualTokens : Int) :
    db.Settled now owner reservationId
      (commitTokenBudget db backendAvailable now owner reservationId actualTokens).2 := by
  unfold commitTokenBudget
  split
  · exact .inl rfl
  · cases hc : commitStatements db now owner reservationId (max actualTokens 0).toNat with
    | none => exact .inl rfl
    | some db' =>
      unfold commitStatements at hc
      split at hc
      next r hr =>
        have hres := reservations_chargeOnce hc
        rw [reservations_returnReservation] at hres
        exact .inr ⟨_, .inr hres⟩
      next => exact .inr ⟨_, .inl (reservations_chargeOnce hc)⟩

theorem BudgetDb.Settled.release (db : BudgetDb) (backendAvailable : Bool) (now : Instant)
    (owner reservationId : Uuid) :
    db.Settled now owner reservationId (releaseTokenBudget db backendAvailable now owner reservationId).2 := by
  unfold releaseTokenBudget
  split
  · exact .inl rfl
  · split
    · exact .inl rfl
    · exact .inr ⟨_, .inr reservations_returnReservation⟩

theorem BudgetDb.Settled.heldByOthers_le {db db' : BudgetDb} {now owner reservationId}
    (h : db.Settled now owner reservationId db') (user : Uuid) (date : Date) :
    db.heldByOthers now reservationId user date ≤ db'.outstandingOn user date := by
  simp only [BudgetDb.heldByOthers, outstandingOn]
  rcases h with h | ⟨date', h | h⟩ <;> rw [h]
  · refine Table.sumBy_mono fun r _ hr => ?_
    simp only [Bool.and_eq_true] at hr
    exact hr.1.1
  · rw [reservations_load]
    refine Table.sumBy_le_deleteWhere fun r _ hr => ?_
    simp only [Bool.and_eq_true, Bool.not_eq_true'] at hr
    exact ⟨hr.1.1, by rw [hr.1.2, Bool.and_false]⟩
  · simp only [deleteReservation, reservations_load]
    rw [Table.sumBy_deleteWhere]
    refine Table.sumBy_le_deleteWhere fun r _ hr => ?_
    simp only [Bool.and_eq_true, Bool.not_eq_true', bne_iff_ne] at hr
    exact ⟨by simp [hr.1.1, hr.2], by rw [hr.1.2, Bool.and_false]⟩

theorem keepsOthers_of_conserved {s t : BudgetState} {e} (hs : s.next e = .some t) (ht : t.db.Conserved) :
    KeepsOthers s e t := by
  have hdb := BudgetState.next_db hs
  obtain ⟨now, backendAvailable, ent, call⟩ := e
  cases call with
  | reserve | check => trivial
  | commit owner reservationId actualTokens =>
    intro user date
    rw [ht.reserved, hdb]
    exact (BudgetDb.Settled.commit s.db backendAvailable now owner reservationId actualTokens).heldByOthers_le
      user date
  | release owner reservationId =>
    intro user date
    rw [ht.reserved, hdb]
    exact (BudgetDb.Settled.release s.db backendAvailable now owner reservationId).heldByOthers_le user date

/-- **A run conserves the budget exactly when its commits and releases settle
safely.** Then none of them gives back what another live reservation holds. -/
theorem budget_conserved_iff {s tr} (h0 : budgetSystem.init s) (hr : budgetSystem.Run s tr) :
    ((∀ x ∈ tr, x.2.db.Conserved) ∧ Along KeepsOthers s tr) ↔
      Along (fun s e _ => e.settlesSafely s.db = true) s tr := by
  have hstart : s.db.Conserved ∧ s.db.Positive := by
    rw [show s.db = .empty from h0]
    exact ⟨.empty, fun r hr => by cases hr⟩
  have hstep : ∀ s e t, budgetSystem.step s e t → s.db.Conserved ∧ s.db.Positive →
      ((t.db.Conserved ∧ t.db.Positive) ↔ e.settlesSafely s.db = true) := by
    intro s e t hs ⟨hc, hp⟩
    rw [BudgetState.next_db hs, BudgetEvent.conserved_iff hc hp, and_iff_left (BudgetEvent.positive hp)]
  have hiff := System.Run.invariant_iff_guarded hstep hr hstart
  have hpos : ∀ x ∈ tr, x.2.db.Positive := System.Run.invariant (I := fun s => s.db.Positive)
    (fun s e t hs hp => by rw [BudgetState.next_db hs]; exact BudgetEvent.positive hp) hr hstart.2
  refine ⟨fun h => hiff.1 fun x hx => ⟨h.1 x hx, hpos x hx⟩, fun h => ?_⟩
  have hc : ∀ x ∈ tr, x.2.db.Conserved := fun x hx => (hiff.2 h x hx).1
  exact ⟨hc, System.Run.along_of_states (I := fun s => s.db.Conserved) (P := KeepsOthers)
    (fun _ _ _ hs ht => keepsOthers_of_conserved hs ht) hr hc⟩

/-! ## A run on one date -/

/-- Two reservations of 100 tokens, the first for a second and the second for
a quarter of an hour, and a call that settles the first at `now`. -/
def twoReservations (now : Instant) (settle : BudgetCall) : List BudgetEvent :=
  let plan : Entitlements := ⟨true, .some 1000, 0, 31⟩
  [⟨0, true, plan, .reserve 1 101 100 1⟩, ⟨0, true, plan, .reserve 1 102 100 900⟩, ⟨now, true, plan, settle⟩]

def emptyBudget : BudgetState := ⟨0, .empty⟩

theorem budget_conserved_iff_live :
    (replay BudgetState.next emptyBudget (twoReservations 500000 (.commit 1 101 40))).length = 3 ∧
    ∀ x ∈ replay BudgetState.next emptyBudget (twoReservations 500000 (.commit 1 101 40)), x.2.db.Conserved :=
  ⟨by decide, ((budget_conserved_iff (s := emptyBudget) rfl System.run_replay).2 (by decide)).1⟩

/-- The first reservation expires before it is released: the sweep and the
release both subtract it, and the second one's tokens are gone from the daily
row. -/
theorem budget_not_conserved : ∃ s tr, budgetSystem.init s ∧ budgetSystem.Run s tr ∧
    ¬ ((∀ x ∈ tr, x.2.db.Conserved) ∧ Along KeepsOthers s tr) := by
  refine ⟨emptyBudget, replay BudgetState.next emptyBudget (twoReservations 2000000 (.release 1 101)), rfl,
    System.run_replay, fun h => ?_⟩
  have hlast := h.1 _ (List.getLast_mem (by decide))
  have hr := hlast.reserved 1 0
  revert hr
  decide

end Nexus.Billing
