/-
Datetimes of the years 1 to 9999, by the microseconds their own clock shows and
the offset of that clock, and their ISO 8601 texts.

`isoformat` writes a datetime whose offset is zero. `fromisoformat` reads the
texts with all fields written out, whatever their offset; of the other
spellings the standard library takes, none is what `isoformat` writes.
-/
import Nexus.Lib.Calendar
import Mathlib.Tactic.Ring

namespace Iso

def microsPerDay : Nat := 86400000000

/-- The first microsecond of the year 10000. -/
def maxMicros : Nat := 3652059 * microsPerDay

/-- A `datetime`; a naive one has no offset. -/
structure DateTime where
  clock : Nat
  utcoffset : Option Int
  clock_lt : clock < maxMicros
  utcoffset_lt : ∀ o ∈ utcoffset, -(microsPerDay : Int) < o ∧ o < microsPerDay
  deriving DecidableEq, Repr

/-- The microsecond of an aware datetime on the clock of UTC. -/
def DateTime.instant (d : DateTime) : Option Int := d.utcoffset.map fun o => d.clock - o

/-- The datetime that shows an instant on the clock of UTC. -/
def ofUtc (n : Nat) (h : n < maxMicros) : DateTime := ⟨n, .some 0, h, by intro o ho; cases ho; decide⟩

/-! ## Fixed-width numbers -/

/-- `n` with its leading zeros, on `w` digits. -/
def pad : Nat → Nat → List Char
  | 0, _ => []
  | w + 1, n => (n / 10 ^ w).digitChar :: pad w (n % 10 ^ w)

def readDigits : Nat → Nat → List Char → Option (Nat × List Char)
  | 0, acc, s => .some (acc, s)
  | _ + 1, _, [] => .none
  | w + 1, acc, c :: s => if c.isDigit then readDigits w (acc * 10 + (c.toNat - 48)) s else .none

theorem readDigits_pad (w : Nat) : ∀ (acc : Nat) {n : Nat}, n < 10 ^ w → ∀ rest : List Char,
    readDigits w acc (pad w n ++ rest) = .some (acc * 10 ^ w + n, rest) := by
  induction w with
  | zero =>
    intro acc n h rest
    rw [Nat.pow_zero, Nat.lt_one_iff] at h
    simp [pad, readDigits, h]
  | succ w ih =>
    intro acc n h rest
    have hdigit : n / 10 ^ w < 10 := by
      rw [Nat.div_lt_iff_lt_mul (Nat.pow_pos (by omega)), Nat.mul_comm]
      simpa [Nat.pow_succ] using h
    have hall : ∀ m < 10, m.digitChar.isDigit = true ∧ m.digitChar.toNat - 48 = m := by decide
    obtain ⟨hisDigit, hvalue⟩ := hall _ hdigit
    rw [pad, List.cons_append, readDigits, if_pos hisDigit, hvalue, ih _ (Nat.mod_lt _ (Nat.pow_pos (by omega)))]
    have hsum : (acc * 10 + n / 10 ^ w) * 10 ^ w + n % 10 ^ w = acc * 10 ^ (w + 1) + n := by
      have hdiv := Nat.div_add_mod n (10 ^ w)
      calc (acc * 10 + n / 10 ^ w) * 10 ^ w + n % 10 ^ w
          = acc * 10 ^ (w + 1) + (10 ^ w * (n / 10 ^ w) + n % 10 ^ w) := by ring
        _ = acc * 10 ^ (w + 1) + n := by rw [hdiv]
    rw [hsum]

def expect (c : Char) : List Char → Option (List Char)
  | d :: s => if c = d then .some s else .none
  | [] => .none

@[simp] theorem expect_cons (c : Char) (s : List Char) : expect c (c :: s) = .some s := if_pos rfl

/-! ## Writing -/

def writeDate (date : Calendar.Ymd) : List Char :=
  pad 4 date.year ++ '-' :: (pad 2 date.month ++ '-' :: pad 2 date.day)

/-- The time of day of a number of microseconds. -/
def writeTime (time : Nat) : List Char :=
  pad 2 (time / 3600000000) ++ ':' :: (pad 2 (time / 60000000 % 60) ++ ':' :: (pad 2 (time / 1000000 % 60) ++
    (if time % 1000000 = 0 then [] else '.' :: pad 6 (time % 1000000))))

/-- `isoformat` of a datetime of UTC, by its clock. -/
def isoformat (n : Nat) : List Char :=
  writeDate (Calendar.ymdOfDay (n / microsPerDay)) ++ 'T' :: (writeTime (n % microsPerDay) ++ "+00:00".toList)

/-! ## Reading -/

/-- The offset of a text: nothing, `Z` or hours and minutes. -/
def readOffset : List Char → Option (Option Int)
  | [] => .some .none
  | ['Z'] => .some (.some 0)
  | sign :: s => do
    let (hours, s) ← readDigits 2 0 s
    let s ← expect ':' s
    let (minutes, s) ← readDigits 2 0 s
    if s = [] ∧ hours < 24 ∧ minutes < 60 then
      let micros : Int := (hours * 60 + minutes) * 60000000
      if sign = '+' then .some (.some micros)
      else if sign = '-' then .some (.some (-micros))
      else .none
    else .none

/-- The fraction of a second, when there is one. -/
def readMicros : List Char → Option (Nat × List Char)
  | '.' :: s => readDigits 6 0 s
  | s => .some (0, s)

def readDate (s : List Char) : Option (Calendar.Ymd × List Char) := do
  let (year, s) ← readDigits 4 0 s
  let s ← expect '-' s
  let (month, s) ← readDigits 2 0 s
  let s ← expect '-' s
  let (day, s) ← readDigits 2 0 s
  return (⟨year, month, day⟩, s)

def readTime (s : List Char) : Option (Nat × List Char) := do
  let (hour, s) ← readDigits 2 0 s
  let s ← expect ':' s
  let (minute, s) ← readDigits 2 0 s
  let s ← expect ':' s
  let (second, s) ← readDigits 2 0 s
  let (micros, s) ← readMicros s
  if hour < 24 ∧ minute < 60 ∧ second < 60 then
    .some (hour * 3600000000 + minute * 60000000 + second * 1000000 + micros, s)
  else .none

/-- The datetime of the fields of a text, when they are in range. -/
def ofFields (date : Calendar.Ymd) (time : Nat) (utcoffset : Option Int) : Option DateTime :=
  if h : date.Valid ∧ Calendar.dayOfYmd date * microsPerDay + time < maxMicros ∧
      ∀ o ∈ utcoffset, -(microsPerDay : Int) < o ∧ o < microsPerDay then
    .some ⟨Calendar.dayOfYmd date * microsPerDay + time, utcoffset, h.2.1, h.2.2⟩
  else .none

/-- `datetime.fromisoformat` -/
def fromisoformat (s : List Char) : Option DateTime := do
  let (date, s) ← readDate s
  -- Any one character separates the date and the time.
  let s ← s.tail?
  let (time, s) ← readTime s
  let utcoffset ← readOffset s
  ofFields date time utcoffset

/-! ## The round trip -/

theorem readOffset_utc : readOffset "+00:00".toList = .some (.some 0) := by decide

theorem readMicros_fraction {micros : Nat} (h : micros < 1000000) :
    readMicros ((if micros = 0 then [] else '.' :: pad 6 micros) ++ "+00:00".toList) = .some (micros, "+00:00".toList) := by
  split
  · rename_i h0
    subst h0
    rfl
  · have hread := readDigits_pad 6 0 (n := micros) (by omega) "+00:00".toList
    rw [Nat.zero_mul, Nat.zero_add] at hread
    exact hread

theorem readDate_writeDate {date : Calendar.Ymd} (hvalid : date.Valid) (hyear : date.year ≤ 9999) (rest : List Char) :
    readDate (writeDate date ++ rest) = .some (date, rest) := by
  have hmonth : date.month ≤ 12 := hvalid.2.2.1
  have hday : date.day ≤ 31 := le_trans hvalid.2.2.2.2 (Calendar.daysInMonth_le _ _)
  rw [readDate, writeDate]
  simp only [List.append_assoc, List.cons_append, Option.bind_eq_bind, Option.bind_some, Option.pure_def, expect_cons,
    readDigits_pad 4 0 (show date.year < 10 ^ 4 by omega), readDigits_pad 2 0 (show date.month < 10 ^ 2 by omega),
    readDigits_pad 2 0 (show date.day < 10 ^ 2 by omega), Nat.zero_mul, Nat.zero_add]

theorem readTime_writeTime {time : Nat} (h : time < microsPerDay) :
    readTime (writeTime time ++ "+00:00".toList) = .some (time, "+00:00".toList) := by
  rw [microsPerDay] at h
  have hrange : time / 3600000000 < 24 ∧ time / 60000000 % 60 < 60 ∧ time / 1000000 % 60 < 60 := by omega
  have hsum : time / 3600000000 * 3600000000 + time / 60000000 % 60 * 60000000 + time / 1000000 % 60 * 1000000 +
      time % 1000000 = time := by omega
  rw [readTime, writeTime]
  simp only [List.append_assoc, List.cons_append, Option.bind_eq_bind, Option.bind_some, expect_cons,
    readDigits_pad 2 0 (show time / 3600000000 < 10 ^ 2 by omega),
    readDigits_pad 2 0 (show time / 60000000 % 60 < 10 ^ 2 by omega),
    readDigits_pad 2 0 (show time / 1000000 % 60 < 10 ^ 2 by omega), Nat.zero_mul, Nat.zero_add,
    readMicros_fraction (show time % 1000000 < 1000000 by omega), if_pos hrange, hsum]

/-- **The text of a datetime of UTC is read back as that datetime.** -/
theorem fromisoformat_isoformat {n : Nat} (h : n < maxMicros) : fromisoformat (isoformat n) = .some (ofUtc n h) := by
  have hdays : n / microsPerDay < 3652059 := Nat.div_lt_of_lt_mul (by rw [Nat.mul_comm]; exact h)
  obtain ⟨hvalid, hday⟩ := Calendar.dayOfYmd_ymdOfDay (n / microsPerDay)
  have hdate := readDate_writeDate hvalid (Calendar.ymdOfDay_year_le hdays)
    ('T' :: (writeTime (n % microsPerDay) ++ "+00:00".toList))
  have htime := readTime_writeTime (Nat.mod_lt n (show 0 < microsPerDay by decide))
  have hclock : n / microsPerDay * microsPerDay + n % microsPerDay = n := by
    rw [Nat.mul_comm]
    exact Nat.div_add_mod n microsPerDay
  have hoffset : ∀ o ∈ Option.some (0 : Int), -(microsPerDay : Int) < o ∧ o < microsPerDay := by
    intro o ho
    cases ho
    decide
  have hfields : ofFields (Calendar.ymdOfDay (n / microsPerDay)) (n % microsPerDay) (.some 0) = .some (ofUtc n h) := by
    unfold ofFields
    simp only [hday, hclock]
    exact dif_pos ⟨hvalid, h, hoffset⟩
  rw [fromisoformat, isoformat, hdate]
  simp only [Option.bind_eq_bind, Option.bind_some, List.tail?_cons, htime, readOffset_utc, hfields]

end Iso
