/-
The monthly quota at admission, with the transactions of `reserve_token_budget`
interleaved.

`_lock_scope` takes an advisory lock on a user and one date and holds it to
the end of the transaction, so a pending reserve is found by its lock. Between
its quota comparison and its commit every transaction that needs another lock
may commit: the comparison reads the tables as then committed (READ COMMITTED),
under the transaction's own sweep. `now()` is fixed when a transaction begins,
so the clock readings along a run come in no order. The other calls are one
step: they decide nothing on what other dates hold.

The comparison adds up a whole billing period and the lock names one date of
it, so a reserve that commits on another date of the period is not seen. A run
without such a commit admits nothing over the limit.
-/
import Nexus.Billing.Conservation

namespace Nexus.Billing
open Relational Transition

/-! ## What a period holds -/

/-- `user_id = … AND usage_date >= start AND usage_date < end` -/
def inPeriod (user : Uuid) (ent : Entitlements) (k : Uuid × Date) : Bool :=
  k.1 == user && decide (ent.usagePeriodStart ≤ k.2) && decide (k.2 < ent.usagePeriodEnd)

def Reservation.dayKey (r : Reservation) : Uuid × Date := (r.userId, r.usageDate)

def Charge.dayKey (c : Charge) : Uuid × Date := (c.userId, c.usageDate)

namespace BudgetDb

def chargedIn (db : BudgetDb) (user : Uuid) (ent : Entitlements) : Nat :=
  db.charges.sumBy (fun c => inPeriod user ent c.dayKey) (·.chargedTokens)

def outstandingIn (db : BudgetDb) (user : Uuid) (ent : Entitlements) : Nat :=
  db.reservations.sumBy (fun r => inPeriod user ent r.dayKey) (·.reservedTokens)

/-- What the reservations that are live at an instant hold. -/
def liveIn (db : BudgetDb) (at_ : Instant) (user : Uuid) (ent : Entitlements) : Nat :=
  db.reservations.sumBy (fun r => inPeriod user ent r.dayKey && !r.expired at_) (·.reservedTokens)

theorem liveIn_le (db : BudgetDb) (at_ : Instant) (user : Uuid) (ent : Entitlements) :
    db.liveIn at_ user ent ≤ db.outstandingIn user ent :=
  Table.sumBy_mono fun r _ hr => by
    simp only [Bool.and_eq_true] at hr
    exact hr.1

/-- With the sums conserved, the daily rows of a period add up to its charges
and its outstanding reservations. -/
theorem Conserved.getPlatformTokenUsage {db : BudgetDb} (h : db.Conserved) (user : Uuid) (ent : Entitlements) :
    db.getPlatformTokenUsage user ent.usagePeriodStart ent.usagePeriodEnd =
      (db.chargedIn user ent, db.outstandingIn user ent) := by
  have hof : ∀ {user date} {r : Reservation}, decide (r.dayKey = (user, date)) = r.isOf user date := by
    intro user date r
    rw [Bool.eq_iff_iff, decide_eq_true_eq, Reservation.isOf_iff, eq_comm]; rfl
  have hofc : ∀ {user date} {c : Charge}, decide (c.dayKey = (user, date)) = c.isOf user date := by
    intro user date c
    rw [Bool.eq_iff_iff, decide_eq_true_eq, Charge.isOf_iff, eq_comm]; rfl
  have hspent : db.daily.sumBy (fun a => inPeriod user ent a.key) (·.spentTokens) =
      db.chargedIn user ent := by
    refine Table.sum_groups (fun a ha => ?_) fun c hc hnone => ?_
    · have hs := h.spent a.userId a.usageDate
      rw [spentOn, show (a.userId, a.usageDate) = a.key from rfl, Table.find?_of_mem ha] at hs
      exact hs.trans (by simp only [chargedOn, Table.sumBy, ← hofc])
    · have hs := h.spent c.userId c.usageDate
      rw [spentOn, show (c.userId, c.usageDate) = c.dayKey from rfl, hnone] at hs
      have hle : c.chargedTokens ≤ db.chargedOn c.userId c.usageDate :=
        Table.le_sumBy hc (Charge.isOf_iff.2 rfl)
      exact Nat.le_zero.1 (hle.trans (Nat.le_of_eq hs.symm))
  have hreserved : db.daily.sumBy (fun a => inPeriod user ent a.key) (·.reservedTokens) =
      db.outstandingIn user ent := by
    refine Table.sum_groups (fun a ha => ?_) fun r hr hnone => ?_
    · have hs := h.reserved a.userId a.usageDate
      rw [reservedOn, show (a.userId, a.usageDate) = a.key from rfl, Table.find?_of_mem ha] at hs
      exact hs.trans (by simp only [outstandingOn, Table.sumBy, ← hof])
    · have hs := h.reserved r.userId r.usageDate
      rw [reservedOn, show (r.userId, r.usageDate) = r.dayKey from rfl, hnone] at hs
      have hle : r.reservedTokens ≤ db.outstandingOn r.userId r.usageDate :=
        Table.le_sumBy hr (Reservation.isOf_iff.2 rfl)
      exact Nat.le_zero.1 (hle.trans (Nat.le_of_eq hs.symm))
  exact Prod.ext hspent hreserved

end BudgetDb

/-! ## Interleaved transactions -/

/-- A `reserve_token_budget` that asks for tokens, between its quota comparison
and its commit. -/
structure PendingReserve where
  userId : Uuid
  reservationId : Uuid
  tokens : Nat
  tokens_pos : 0 < tokens
  ttl : Int
  now : Instant
  entitlements : Entitlements

def PendingReserve.usageDate (p : PendingReserve) : Date := utcDate p.now

abbrev PendingReserve.lockKey (p : PendingReserve) : Uuid × Date := (p.userId, p.usageDate)

/-- The tables as the transaction sees them: those committed, swept by itself. -/
def PendingReserve.view (p : PendingReserve) (db : BudgetDb) : BudgetDb :=
  db.loadBudgetTotalsForUpdate p.now p.userId p.usageDate

def PendingReserve.verdict (p : PendingReserve) (db : BudgetDb) : Admission :=
  admission (p.view db) p.entitlements p.userId p.reservationId p.tokens

def PendingReserve.complete (p : PendingReserve) (db : BudgetDb) : Option BudgetDb :=
  (p.view db).insertReservation p.now p.userId p.reservationId p.usageDate p.tokens (ttlSeconds p.ttl)

structure QuotaState where
  db : BudgetDb
  pending : Table PendingReserve PendingReserve.lockKey

inductive QuotaEvent
  | check (p : PendingReserve)
  | finish (userId : Uuid) (usageDate : Date)
  | abort (userId : Uuid) (usageDate : Date)
  | call (e : BudgetEvent)

/-- The lock a call takes, if it gets as far. -/
def BudgetEvent.lockKey (e : BudgetEvent) (db : BudgetDb) : Option (Uuid × Date) :=
  if !e.backendAvailable then .none
  else match e.call with
    | .reserve user _ _ _ | .check user => .some (user, utcDate e.now)
    | .commit user reservationId _ => .some (user, db.settledDate e.now user reservationId)
    | .release user reservationId =>
      (db.findReservation user reservationId).map fun r => (user, r.usageDate)

def QuotaState.next (s : QuotaState) : QuotaEvent → Option QuotaState
  | .check p =>
    -- a lock that is taken blocks the transaction
    match s.pending.insert? p with
    | .none => .none
    | .some pending =>
      match p.verdict s.db with
      | .existing => .some { s with db := p.view s.db }
      | .refused _ => .some s
      | .accepted => .some { s with pending }
  | .finish user date =>
    (s.pending.find? (user, date)).map fun p =>
      ⟨(p.complete s.db).getD s.db, s.pending.deleteWhere fun q => q.lockKey == (user, date)⟩
  | .abort user date => .some { s with pending := s.pending.deleteWhere fun q => q.lockKey == (user, date) }
  | .call e =>
    match e.call with
    | .reserve .. => .none
    | _ => if (e.lockKey s.db).all fun k => (s.pending.find? k).isNone then
        .some { s with db := (e.run s.db).2 } else .none

/-- A reserve that commits leaves the user's period, charges and live
reservations together, within the limit it was checked against. -/
def Admitted (s : QuotaState) (e : QuotaEvent) (t : QuotaState) : Prop :=
  match e with
  | .finish user date => ∀ p, s.pending.find? (user, date) = .some p → (p.complete s.db).isSome = true →
    ∀ limit, p.entitlements.platformTokenLimitMonthly = .some limit → ∀ at_,
      ((t.db.chargedIn user p.entitlements + t.db.liveIn at_ user p.entitlements : Nat) : Int) ≤ limit
  | .check _ | .abort .. | .call _ => True

/-- A limited user's date lies in the period the transaction adds up. -/
def PendingReserve.covers (p : PendingReserve) (user : Uuid) (date : Date) : Bool :=
  p.entitlements.platformTokenLimitMonthly.isSome && inPeriod p.userId p.entitlements (user, date)

/-- No reserve is between its comparison and its commit when another date of
its period gains a reservation or a charge, and the settling calls settle
safely. -/
def QuotaEvent.undisturbed (s : QuotaState) : QuotaEvent → Bool
  | .check _ | .abort .. => true
  | .finish user date => s.pending.rows.all fun q => q.lockKey == (user, date) || !q.covers user date
  | .call e => e.settlesSafely s.db && match e.call with
    | .commit user reservationId _ => !e.backendAvailable ||
      s.pending.rows.all fun q => !q.covers user (s.db.settledDate e.now user reservationId)
    | .reserve .. | .release .. | .check _ => true

/-- What its period holds as the transaction sees it. -/
def PendingReserve.held (p : PendingReserve) (db : BudgetDb) : Nat :=
  (p.view db).chargedIn p.userId p.entitlements + (p.view db).outstandingIn p.userId p.entitlements

/-- Its tokens still fit under the limit it compared with. -/
def PendingReserve.Fits (p : PendingReserve) (db : BudgetDb) : Prop :=
  ∀ limit, p.entitlements.platformTokenLimitMonthly = .some limit → ((p.held db + p.tokens : Nat) : Int) ≤ limit

theorem PendingReserve.fits_of_accepted {p : PendingReserve} {db : BudgetDb} (h : db.Conserved)
    (hv : p.verdict db = .accepted) : p.Fits db := by
  intro limit hlimit
  have husage := (h.load p.now p.userId p.usageDate).getPlatformTokenUsage p.userId p.entitlements
  simp only [verdict, admission, view, husage, hlimit] at hv
  split at hv
  · cases hv
  · split at hv
    · cases hv
    · split at hv
      · cases hv
      · rename_i hle
        simp only [held, view]
        omega

/-- A step that takes reservations away, and adds a charge or a reservation
only outside the period, leaves the tokens fitting. -/
theorem PendingReserve.Fits.mono {p : PendingReserve} {db db' : BudgetDb} (h : p.Fits db)
    (hle : p.entitlements.platformTokenLimitMonthly.isSome = true → p.held db' ≤ p.held db) : p.Fits db' := by
  intro limit hlimit
  have hl := h limit hlimit
  have hle := hle (by rw [hlimit]; rfl)
  omega

theorem PendingReserve.held_eq {p : PendingReserve} {db : BudgetDb} :
    p.held db =
      db.chargedIn p.userId p.entitlements +
      db.reservations.sumBy (fun r =>
        inPeriod p.userId p.entitlements r.dayKey && !(r.isOf p.userId p.usageDate && r.expired p.now)) (·.reservedTokens) := by
  simp only [held, view, BudgetDb.chargedIn, BudgetDb.outstandingIn, BudgetDb.charges_load,
    BudgetDb.reservations_load, Table.sumBy_deleteWhere]

theorem PendingReserve.held_le {p : PendingReserve} {db db' : BudgetDb}
    (hc : db'.chargedIn p.userId p.entitlements ≤ db.chargedIn p.userId p.entitlements)
    (hr : ∀ q : Reservation → Bool, (∀ r, q r = true →
        inPeriod p.userId p.entitlements r.dayKey = true) →
      db'.reservations.sumBy q (·.reservedTokens) ≤ db.reservations.sumBy q (·.reservedTokens)) :
    p.held db' ≤ p.held db := by
  rw [held_eq, held_eq]
  refine Nat.add_le_add hc (hr _ fun r h => ?_)
  simp only [Bool.and_eq_true] at h
  exact h.1

/-! ## What the other steps do to a pending reserve -/

theorem BudgetDb.sumBy_load_le {db : BudgetDb} {now user date} (q : Reservation → Bool) :
    (db.loadBudgetTotalsForUpdate now user date).reservations.sumBy q (·.reservedTokens) ≤
      db.reservations.sumBy q (·.reservedTokens) := by
  rw [reservations_load]
  exact Table.sumBy_deleteWhere_le

theorem BudgetDb.Settled.sumBy_le {db db' : BudgetDb} {now owner reservationId}
    (h : db.Settled now owner reservationId db') (q : Reservation → Bool) :
    db'.reservations.sumBy q (·.reservedTokens) ≤ db.reservations.sumBy q (·.reservedTokens) := by
  rcases h with h | ⟨date, h | h⟩ <;> rw [h]
  · exact sumBy_load_le q
  · exact Nat.le_trans Table.sumBy_deleteWhere_le (sumBy_load_le q)

theorem BudgetDb.charges_commit (db : BudgetDb) (backendAvailable : Bool) (now : Instant)
    (user reservationId : Uuid) (actualTokens : Int) :
    (commitTokenBudget db backendAvailable now user reservationId actualTokens).2.charges = db.charges ∨
    (backendAvailable = true ∧ ∃ c : Charge, c.dayKey = (user, db.settledDate now user reservationId) ∧
      db.charges.insert? c =
        .some (commitTokenBudget db backendAvailable now user reservationId actualTokens).2.charges) := by
  have hcharge : ∀ {x y : BudgetDb} {date tokens}, x.charges = db.charges →
      x.chargeOnce user reservationId date tokens = .some y → y.charges = db.charges ∨
        ∃ c : Charge, c.dayKey = (user, date) ∧ db.charges.insert? c = .some y.charges := by
    intro x y date tokens hx hy
    rcases chargeOnce_eq_some hy with rfl | ⟨charges, hins, rfl⟩
    · exact .inl hx
    · rw [hx] at hins
      exact .inr ⟨_, rfl, hins⟩
  unfold commitTokenBudget
  cases backendAvailable with
  | false => exact .inl rfl
  | true =>
    simp only [Bool.not_true, Bool.false_eq_true, if_false]
    cases hc : commitStatements db now user reservationId (max actualTokens 0).toNat with
    | none => exact .inl rfl
    | some db' =>
      unfold commitStatements at hc
      split at hc
      next r hr =>
        rw [settledDate, hr]
        exact (hcharge (by simp) hc).imp_right fun h => ⟨trivial, h⟩
      next hn =>
        rw [settledDate, hn]
        exact (hcharge (by simp) hc).imp_right fun h => ⟨trivial, h⟩

theorem PendingReserve.Fits.call {p : PendingReserve} {db : BudgetDb} {e : BudgetEvent} (h : p.Fits db)
    (hcall : match e.call with
      | .commit user reservationId _ =>
        e.backendAvailable = true → p.covers user (db.settledDate e.now user reservationId) = false
      | .reserve .. => False
      | .release .. | .check _ => True) : p.Fits (e.run db).2 := by
  obtain ⟨now, backendAvailable, ent, call⟩ := e
  refine h.mono fun hlimited => ?_
  cases call with
  | reserve => exact hcall.elim
  | check user =>
    rcases BudgetDb.check_cases db backendAvailable now ent user with he | he
    · simp only [BudgetEvent.run, he]; exact Nat.le_refl _
    · simp only [BudgetEvent.run, he]
      exact held_le (by simp [BudgetDb.chargedIn]) fun q _ => BudgetDb.sumBy_load_le q
  | release user reservationId =>
    have hset := BudgetDb.Settled.release db backendAvailable now user reservationId
    refine held_le ?_ fun q _ => hset.sumBy_le q
    simp only [BudgetEvent.run, releaseTokenBudget]
    split
    · exact Nat.le_refl _
    · split
      · exact Nat.le_refl _
      · simp [BudgetDb.chargedIn]
  | commit user reservationId actualTokens =>
    have hset := BudgetDb.Settled.commit db backendAvailable now user reservationId actualTokens
    refine held_le ?_ fun q _ => hset.sumBy_le q
    simp only [BudgetEvent.run, BudgetDb.chargedIn]
    rcases BudgetDb.charges_commit db backendAvailable now user reservationId actualTokens with
      hc | ⟨havail, c, hday, hins⟩
    · rw [hc]
    · have hout := hcall havail
      rw [covers, hlimited, Bool.true_and] at hout
      rw [Table.sumBy_insert? hins, hday, hout]
      exact Nat.le_of_eq (Nat.zero_add _)

/-! ## Runs -/

structure QuotaInv (s : QuotaState) : Prop where
  conserved : s.db.Conserved
  positive : s.db.Positive
  fits : ∀ p ∈ s.pending.rows, p.Fits s.db

theorem PendingReserve.complete_conserved {p : PendingReserve} {db db' : BudgetDb} (h : db.Conserved)
    (hc : p.complete db = .some db') : db'.Conserved :=
  (h.load _ _ _).insertReservation BudgetDb.isSome_load hc

theorem PendingReserve.complete_positive {p : PendingReserve} {db db' : BudgetDb} (h : db.Positive)
    (hc : p.complete db = .some db') : db'.Positive :=
  (h.load _ _ _).insertReservation p.tokens_pos hc

theorem PendingReserve.complete_eq_some {p : PendingReserve} {db db' : BudgetDb} (hc : p.complete db = .some db') :
    db'.charges = db.charges ∧ ∃ r : Reservation, r.dayKey = p.lockKey ∧ r.reservedTokens = p.tokens ∧
      (p.view db).reservations.insert? r = .some db'.reservations := by
  obtain ⟨reservations, hins, rfl⟩ := BudgetDb.insertReservation_eq_some hc
  exact ⟨BudgetDb.charges_load, _, rfl, rfl, hins⟩

theorem PendingReserve.Fits.admitted {p : PendingReserve} {db db' : BudgetDb} (h : p.Fits db)
    (hc : p.complete db = .some db') {limit} (hlimit : p.entitlements.platformTokenLimitMonthly = .some limit)
    (at_ : Instant) :
    ((db'.chargedIn p.userId p.entitlements + db'.liveIn at_ p.userId p.entitlements : Nat) : Int) ≤ limit := by
  obtain ⟨hch, r, -, htokens, hins⟩ := complete_eq_some hc
  have hfit := h limit hlimit
  have hlive := db'.liveIn_le at_ p.userId p.entitlements
  have hout : db'.outstandingIn p.userId p.entitlements ≤
      p.tokens + (p.view db).outstandingIn p.userId p.entitlements := by
    rw [BudgetDb.outstandingIn, Table.sumBy_insert? hins, htokens]
    refine Nat.add_le_add_right ?_ _
    split <;> omega
  have hcharged : db'.chargedIn p.userId p.entitlements = (p.view db).chargedIn p.userId p.entitlements := by
    simp only [BudgetDb.chargedIn, hch, view, BudgetDb.charges_load]
  simp only [held] at hfit
  omega

theorem PendingReserve.Fits.complete {p q : PendingReserve} {db db' : BudgetDb} (h : q.Fits db)
    (hc : p.complete db = .some db') (hout : q.covers p.userId p.usageDate = false) : q.Fits db' := by
  obtain ⟨hch, r, hday, -, hins⟩ := complete_eq_some hc
  refine h.mono fun hlimited => held_le (by simp only [BudgetDb.chargedIn, hch]; exact Nat.le_refl _) fun f hf => ?_
  rw [covers, hlimited, Bool.true_and] at hout
  have hfr : f r = false := by
    cases hfr : f r with
    | false => rfl
    | true => rw [← hf r hfr, hday, hout]
  rw [Table.sumBy_insert? hins, hfr]
  simp only [Bool.false_eq_true, if_false, Nat.zero_add]
  exact BudgetDb.sumBy_load_le f

theorem QuotaInv.check {s t : QuotaState} {p} (hs : s.next (.check p) = .some t) (hI : QuotaInv s) : QuotaInv t := by
  simp only [QuotaState.next] at hs
  split at hs
  · cases hs
  · rename_i pending hins
    split at hs
    · obtain rfl := Option.some.inj hs
      refine ⟨hI.conserved.load _ _ _, hI.positive.load _ _ _, fun q hq => ?_⟩
      exact (hI.fits q hq).mono fun _ =>
        PendingReserve.held_le (by simp [PendingReserve.view, BudgetDb.chargedIn]) fun f _ =>
          BudgetDb.sumBy_load_le f
    · obtain rfl := Option.some.inj hs
      exact hI
    · rename_i hv
      obtain rfl := Option.some.inj hs
      refine ⟨hI.conserved, hI.positive, fun q hq => ?_⟩
      have hq : q ∈ pending.rows := hq
      rw [(Table.insert?_eq_some.1 hins).2] at hq
      rcases List.mem_cons.1 hq with rfl | hq
      · exact PendingReserve.fits_of_accepted hI.conserved hv
      · exact hI.fits q hq

theorem QuotaInv.finish {s t : QuotaState} {user date} (hs : s.next (.finish user date) = .some t) (hI : QuotaInv s)
    (hG : ∀ q ∈ s.pending.rows, q.lockKey = (user, date) ∨ q.covers user date = false) :
    QuotaInv t ∧ Admitted s (.finish user date) t := by
  simp only [QuotaState.next, Option.map_eq_some_iff] at hs
  obtain ⟨p, hp, rfl⟩ := hs
  obtain ⟨hmem, hkey⟩ := Table.find?_eq_some.1 hp
  simp only [PendingReserve.lockKey, Prod.mk.injEq] at hkey
  obtain ⟨rfl, rfl⟩ := hkey
  cases hc : p.complete s.db with
  | none =>
    refine ⟨⟨hI.conserved, hI.positive, fun q hq => hI.fits q (Table.mem_deleteWhere.1 hq).1⟩, ?_⟩
    intro p' hp' hsome
    rw [hp] at hp'
    obtain rfl := Option.some.inj hp'
    rw [hc] at hsome; cases hsome
  | some db' =>
    refine ⟨⟨p.complete_conserved hI.conserved hc, p.complete_positive hI.positive hc, fun q hq => ?_⟩, ?_⟩
    · obtain ⟨hq, hne⟩ := Table.mem_deleteWhere.1 hq
      rcases hG q hq with hsame | hout
      · rw [hsame] at hne; simp at hne
      · exact (hI.fits q hq).complete hc hout
    · intro p' hp' _ limit hlimit at_
      rw [hp] at hp'
      obtain rfl := Option.some.inj hp'
      exact (hI.fits p hmem).admitted hc hlimit at_

theorem QuotaState.next_call {s t : QuotaState} {e} (hs : s.next (.call e) = .some t) :
    t = { s with db := (e.run s.db).2 } ∧ ∀ u r n m, e.call ≠ .reserve u r n m := by
  simp only [QuotaState.next] at hs
  split at hs
  · cases hs
  · rename_i hne
    split at hs
    · exact ⟨(Option.some.inj hs).symm, fun u r n m h => hne u r n m h⟩
    · cases hs

theorem QuotaInv.call {s t : QuotaState} {e} (hs : s.next (.call e) = .some t) (hI : QuotaInv s)
    (hG : QuotaEvent.undisturbed s (.call e) = true) : QuotaInv t := by
  obtain ⟨rfl, hne⟩ := QuotaState.next_call hs
  simp only [QuotaEvent.undisturbed, Bool.and_eq_true] at hG
  obtain ⟨hsafe, hG⟩ := hG
  refine ⟨(BudgetEvent.conserved_iff hI.conserved hI.positive).2 hsafe, BudgetEvent.positive hI.positive,
    fun q hq => (hI.fits q hq).call ?_⟩
  cases hcall : e.call with
  | reserve u r n m => exact hne u r n m hcall
  | release | check => trivial
  | commit user reservationId actualTokens =>
    intro havail
    rw [hcall] at hG
    simp only [havail, Bool.not_true, Bool.false_or, List.all_eq_true, Bool.not_eq_true'] at hG
    exact hG q hq

/-- **One step.** From a state where every pending reserve still fits, an
undisturbed step leaves every pending reserve fitting and admits within the
limit. -/
theorem QuotaInv.step {s t : QuotaState} {e} (hs : s.next e = .some t) (hI : QuotaInv s)
    (hG : e.undisturbed s = true) : QuotaInv t ∧ Admitted s e t := by
  cases e with
  | check p => exact ⟨hI.check hs, trivial⟩
  | finish user date =>
    simp only [QuotaEvent.undisturbed, List.all_eq_true, Bool.or_eq_true, beq_iff_eq, Bool.not_eq_true'] at hG
    exact hI.finish hs hG
  | abort user date =>
    simp only [QuotaState.next, Option.some.injEq] at hs
    subst hs
    exact ⟨⟨hI.conserved, hI.positive, fun q hq => hI.fits q (Table.mem_deleteWhere.1 hq).1⟩, trivial⟩
  | call e => exact ⟨hI.call hs hG, trivial⟩

end Nexus.Billing
