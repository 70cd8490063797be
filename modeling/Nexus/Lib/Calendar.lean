/-
The proleptic Gregorian calendar: days counted from the first of January of
the year 1, and the year, month and day of each.

`ymdOfDay` goes through cycles of 400, 100, 4 and 1 years, the way `datetime`
does. That it inverts `dayOfYmd` is one linear fact about the years left in
each cycle.
-/
import Mathlib.Data.List.Basic
import Mathlib.Algebra.Ring.Nat
import Mathlib.Tactic.Common

namespace Calendar

def isLeap (year : Nat) : Bool := year % 4 == 0 && (year % 100 != 0 || year % 400 == 0)

/-- The days before a year, from the year 1 on. -/
def daysBeforeYear (year : Nat) : Nat :=
  let y := year - 1
  y * 365 + y / 4 - y / 100 + y / 400

def monthLengths (leap : Bool) : List Nat := [31, if leap then 29 else 28, 31, 30, 31, 30, 31, 31, 30, 31, 30, 31]

def daysInMonth (year month : Nat) : Nat := (monthLengths (isLeap year)).getD (month - 1) 0

def daysBeforeMonth (leap : Bool) (month : Nat) : Nat := ((monthLengths leap).take (month - 1)).sum

/-- A year, a month from 1 and a day from 1. -/
structure Ymd where
  year : Nat
  month : Nat
  day : Nat
  deriving DecidableEq, Repr

/-- A date that is in the calendar. -/
def Ymd.Valid (date : Ymd) : Prop :=
  1 ≤ date.year ∧ 1 ≤ date.month ∧ date.month ≤ 12 ∧ 1 ≤ date.day ∧ date.day ≤ daysInMonth date.year date.month

instance (date : Ymd) : Decidable date.Valid := by unfold Ymd.Valid; infer_instance

def dayOfYmd (date : Ymd) : Nat :=
  daysBeforeYear date.year + daysBeforeMonth (isLeap date.year) date.month + (date.day - 1)

/-- The month and the day of a day of the year, by the months' lengths. -/
def monthOfDay : List Nat → Nat → Nat × Nat
  | [], n => (1, n + 1)
  | len :: lengths, n =>
    if n < len then (1, n + 1)
    else
      let (month, day) := monthOfDay lengths (n - len)
      (month + 1, day)

def ymdOfDay (n : Nat) : Ymd :=
  let n400 := n / 146097
  let n := n % 146097
  let n100 := n / 36524
  let n := n % 36524
  let n4 := n / 1461
  let n := n % 1461
  let n1 := n / 365
  let n := n % 365
  let year := n400 * 400 + 1 + n100 * 100 + n4 * 4 + n1
  -- The last day of a cycle that ends in a leap year is one past its years.
  if n1 = 4 ∨ n100 = 4 then ⟨year - 1, 12, 31⟩
  else
    let (month, day) := monthOfDay (monthLengths (n1 == 3 && (n4 != 24 || n100 == 3))) n
    ⟨year, month, day⟩

/-! ## Months -/

theorem monthOfDay_spec (lengths : List Nat) : ∀ {n : Nat}, n < lengths.sum →
    let md := monthOfDay lengths n
    1 ≤ md.1 ∧ md.1 ≤ lengths.length ∧ 1 ≤ md.2 ∧ md.2 ≤ lengths.getD (md.1 - 1) 0 ∧
      (lengths.take (md.1 - 1)).sum + (md.2 - 1) = n := by
  induction lengths with
  | nil =>
    intro n h
    simp at h
  | cons len lengths ih =>
    intro n h
    rw [List.sum_cons] at h
    by_cases hn : n < len
    · simp only [monthOfDay, if_pos hn]
      simp only [List.length_cons, Nat.sub_self, List.getD_cons_zero, List.take_zero, List.sum_nil]
      omega
    · obtain ⟨h1, h2, h3, h4, h5⟩ := ih (show n - len < lengths.sum by omega)
      simp only [monthOfDay, if_neg hn]
      generalize monthOfDay lengths (n - len) = md at h1 h2 h3 h4 h5
      obtain ⟨month, day⟩ := md
      obtain ⟨k, rfl⟩ : ∃ k, month = k + 1 := ⟨month - 1, by omega⟩
      simp only [Nat.add_sub_cancel] at h4 h5
      simp only [List.length_cons, Nat.add_sub_cancel, List.getD_cons_succ, List.take_succ_cons, List.sum_cons]
      refine ⟨by omega, by omega, h3, h4, by omega⟩

theorem sum_monthLengths (leap : Bool) : (monthLengths leap).sum = 365 + leap.toNat := by
  cases leap <;> rfl

/-! ## Years -/

theorem daysBeforeYear_cycles {a b c d : Nat} (hb : b < 4) (hc : c < 25) (hd : d < 4) :
    daysBeforeYear (a * 400 + 1 + b * 100 + c * 4 + d) = a * 146097 + b * 36524 + c * 1461 + d * 365 := by
  simp only [daysBeforeYear]
  have h4 : (a * 400 + 1 + b * 100 + c * 4 + d - 1) / 4 = a * 100 + b * 25 + c := by omega
  have h100 : (a * 400 + 1 + b * 100 + c * 4 + d - 1) / 100 = a * 4 + b := by omega
  have h400 : (a * 400 + 1 + b * 100 + c * 4 + d - 1) / 400 = a := by omega
  rw [h4, h100, h400]
  omega

theorem isLeap_cycles {a b c d : Nat} (hb : b < 4) (hc : c < 25) (hd : d < 4) :
    isLeap (a * 400 + 1 + b * 100 + c * 4 + d) = (d == 3 && (c != 24 || b == 3)) := by
  have h4 : (a * 400 + 1 + b * 100 + c * 4 + d) % 4 = (1 + d) % 4 := by omega
  have h100 : (a * 400 + 1 + b * 100 + c * 4 + d) % 100 = (1 + c * 4 + d) % 100 := by omega
  have h400 : (a * 400 + 1 + b * 100 + c * 4 + d) % 400 = (1 + b * 100 + c * 4 + d) % 400 := by omega
  rw [isLeap, h4, h100, h400, Bool.eq_iff_iff]
  simp only [Bool.and_eq_true, Bool.or_eq_true, beq_iff_eq, bne_iff_ne]
  omega

theorem dayOfYmd_monthOfDay {year r : Nat} (hyear : 1 ≤ year) (h : r < 365 + (isLeap year).toNat) :
    let md := monthOfDay (monthLengths (isLeap year)) r
    let date : Ymd := ⟨year, md.1, md.2⟩
    date.Valid ∧ dayOfYmd date = daysBeforeYear year + r := by
  rw [← sum_monthLengths] at h
  obtain ⟨h1, h2, h3, h4, h5⟩ := monthOfDay_spec (monthLengths (isLeap year)) h
  refine ⟨⟨hyear, h1, h2, h3, h4⟩, ?_⟩
  show daysBeforeYear year + daysBeforeMonth (isLeap year) _ + (_ - 1) = _
  rw [Nat.add_assoc, daysBeforeMonth, h5]

theorem dayOfYmd_lastDay {a b c : Nat} (hb : b < 4) (hc : c < 25) (h : c ≠ 24 ∨ b = 3) :
    let date : Ymd := ⟨a * 400 + 1 + b * 100 + c * 4 + 3, 12, 31⟩
    date.Valid ∧ dayOfYmd date = a * 146097 + b * 36524 + c * 1461 + 1460 := by
  have hleap : isLeap (a * 400 + 1 + b * 100 + c * 4 + 3) = true := by
    rw [isLeap_cycles hb hc (by omega)]
    simpa using h
  have hdays := daysBeforeYear_cycles (a := a) hb hc (show 3 < 4 by omega)
  have hmonth : daysBeforeMonth true 12 = 335 := rfl
  refine ⟨⟨by simp only; omega, by simp only; omega, by simp only; omega, by simp only; omega, ?_⟩, ?_⟩
  · show 31 ≤ daysInMonth (a * 400 + 1 + b * 100 + c * 4 + 3) 12
    rw [daysInMonth, hleap]
    decide
  · show daysBeforeYear (a * 400 + 1 + b * 100 + c * 4 + 3) +
      daysBeforeMonth (isLeap (a * 400 + 1 + b * 100 + c * 4 + 3)) 12 + (31 - 1) = _
    rw [hdays, hleap, hmonth]

/-- **The calendar's two readings agree**: the date of a day is in the calendar,
and its day is that day. -/
theorem dayOfYmd_ymdOfDay (n : Nat) : (ymdOfDay n).Valid ∧ dayOfYmd (ymdOfDay n) = n := by
  unfold ymdOfDay
  simp only
  generalize ha : n / 146097 = a
  generalize hb : n % 146097 / 36524 = b
  generalize hc : n % 146097 % 36524 / 1461 = c
  generalize hd : n % 146097 % 36524 % 1461 / 365 = d
  generalize hr : n % 146097 % 36524 % 1461 % 365 = r
  have hn : n = a * 146097 + b * 36524 + c * 1461 + d * 365 + r := by omega
  split
  · rename_i hlast
    -- Either the 400 years end here, or four of them do.
    by_cases hb4 : b = 4
    · have hyear : a * 400 + 1 + b * 100 + c * 4 + d - 1 = a * 400 + 1 + 3 * 100 + 24 * 4 + 3 := by omega
      have hday : a * 146097 + 3 * 36524 + 24 * 1461 + 1460 = n := by omega
      rw [hyear, ← hday]
      exact dayOfYmd_lastDay (a := a) (b := 3) (c := 24) (by omega) (by omega) (.inr rfl)
    · have hyear : a * 400 + 1 + b * 100 + c * 4 + d - 1 = a * 400 + 1 + b * 100 + c * 4 + 3 := by omega
      have hday : a * 146097 + b * 36524 + c * 1461 + 1460 = n := by omega
      rw [hyear, ← hday]
      exact dayOfYmd_lastDay (a := a) (b := b) (c := c) (by omega) (by omega) (by omega)
  · rename_i hlast
    have hb4 : b < 4 := by omega
    have hc25 : c < 25 := by omega
    have hd4 : d < 4 := by omega
    have hleap := isLeap_cycles (a := a) hb4 hc25 hd4
    have hdays := daysBeforeYear_cycles (a := a) hb4 hc25 hd4
    have hlt : r < 365 + (isLeap (a * 400 + 1 + b * 100 + c * 4 + d)).toNat := by
      have h365 : r < 365 := by omega
      omega
    have hpos : 1 ≤ a * 400 + 1 + b * 100 + c * 4 + d := by omega
    obtain ⟨hvalid, hday⟩ := dayOfYmd_monthOfDay hpos hlt
    rw [hleap] at hvalid hday
    refine ⟨hvalid, ?_⟩
    rw [hday, hdays, hn]

theorem daysInMonth_le (year month : Nat) : daysInMonth year month ≤ 31 := by
  have hall : ∀ leap : Bool, ∀ len ∈ monthLengths leap, len ≤ 31 := by decide
  rw [daysInMonth, List.getD_eq_getElem?_getD]
  cases hget : (monthLengths (isLeap year))[month - 1]? with
  | none => exact Nat.zero_le _
  | some len => exact hall _ _ (List.mem_of_getElem? hget)

theorem ymdOfDay_year_le {n : Nat} (h : n < 3652059) : (ymdOfDay n).year ≤ 9999 := by
  unfold ymdOfDay
  simp only
  split
  · simp only
    omega
  · simp only
    omega

end Calendar
