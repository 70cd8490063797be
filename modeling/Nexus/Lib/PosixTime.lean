/-
Seconds since the epoch: of a count of microseconds, as the float `timestamp()`
gives truncated, and as the text of their datetime.

The float is exact to the microsecond for a few centuries only. What slots need
of it holds throughout: a datetime more than `d` seconds after one that is at
second `s` is at second `s + d` or later (`add_le_seconds`), since the float is
never finer later on.
-/
import Nexus.Lib.DateTime
import Mathlib.Data.Nat.Log

namespace Posix

/-- `a / b` to the nearest integer, a tie to the even one. -/
def roundHalfEven (a b : Nat) : Nat :=
  if 2 * (a % b) < b then a / b
  else if b < 2 * (a % b) then a / b + 1
  else if a / b % 2 = 0 then a / b
  else a / b + 1

theorem of_le_roundHalfEven {a b c : Nat} (h : c ≤ roundHalfEven a b) : 2 * (b * c) ≤ 2 * a + b := by
  have hdiv := Nat.div_add_mod a b
  have hc : 2 * (b * c) ≤ 2 * (b * roundHalfEven a b) := Nat.mul_le_mul_left 2 (Nat.mul_le_mul_left b h)
  have hnext : b * (a / b + 1) = b * (a / b) + b := Nat.mul_succ _ _
  unfold roundHalfEven at hc
  split_ifs at hc <;> omega

theorem le_roundHalfEven {a b c : Nat} (hb : 0 < b) (h : 2 * (b * c) < 2 * a + b) : c ≤ roundHalfEven a b := by
  have hdiv := Nat.div_add_mod a b
  have hmod := Nat.mod_lt a hb
  have hle : c ≤ a / b + 1 := by
    by_contra hlt
    have hmul : b * (a / b + 2) ≤ b * c := Nat.mul_le_mul_left b (by omega)
    have hnext : b * (a / b + 2) = b * (a / b) + b * 2 := Nat.mul_add _ _ _
    omega
  unfold roundHalfEven
  split_ifs with hlow hhigh heven
  · by_contra hlt
    obtain rfl : c = a / b + 1 := by omega
    have hnext : b * (a / b + 1) = b * (a / b) + b := Nat.mul_succ _ _
    omega
  · exact hle
  · by_contra hlt
    obtain rfl : c = a / b + 1 := by omega
    have hnext : b * (a / b + 1) = b * (a / b) + b := Nat.mul_succ _ _
    omega
  · exact hle

/-- How many parts of a second a float between `s` and `s + 1` tells apart. -/
def ulps (s : Nat) : Nat := 2 ^ (52 - Nat.log2 s)

/-- `int(datetime.timestamp())`: microseconds over `10**6` as a float of 53
bits, truncated. -/
def seconds (micros : Nat) : Nat :=
  roundHalfEven (micros * ulps (micros / 1000000)) 1000000 / ulps (micros / 1000000)

theorem ulps_pos (s : Nat) : 0 < ulps s := Nat.pow_pos (by decide)

theorem ulps_antitone {s s' : Nat} (h : s ≤ s') : ∃ j, ulps s = ulps s' * 2 ^ j := by
  have hlog : Nat.log2 s ≤ Nat.log2 s' := by
    rw [Nat.log2_eq_log_two, Nat.log2_eq_log_two]
    exact Nat.log_mono_right h
  refine ⟨52 - Nat.log2 s - (52 - Nat.log2 s'), ?_⟩
  unfold ulps
  rw [← Nat.pow_add]
  congr 1
  omega

/-- **More than `d` seconds after second `s` it is second `s + d` at least.** -/
theorem add_le_seconds {m m' s d : Nat} (hs : s ≤ seconds m) (h : m + d * 1000000 < m') : s + d ≤ seconds m' := by
  have hle : m / 1000000 ≤ m' / 1000000 := Nat.div_le_div_right (by omega)
  obtain ⟨j, hj⟩ := ulps_antitone hle
  unfold seconds at hs ⊢
  rw [Nat.le_div_iff_mul_le (ulps_pos _)] at hs ⊢
  generalize hu : ulps (m' / 1000000) = u at hj ⊢
  have hupos : 0 < u := hu ▸ ulps_pos _
  rw [hj] at hs
  have hround := of_le_roundHalfEven hs
  have hp : 1 ≤ 2 ^ j := Nat.one_le_two_pow
  generalize 2 ^ j = p at hround hp
  refine le_roundHalfEven (by decide) ?_
  -- the rounding of `m` is at most half a part, which is no part of `m'` more
  have hcoarse : 2 * (1000000 * (s * u)) ≤ 2 * (m * u) + 1000000 := by
    by_contra hlt
    have hscale : (2 * (m * u) + 1000000 + 1) * p ≤ 2 * (1000000 * (s * u)) * p := Nat.mul_le_mul_right p (by omega)
    have hleft : (2 * (m * u) + 1000000 + 1) * p = 2 * (m * (u * p)) + 1000000 * p + p := by ring
    have hright : 2 * (1000000 * (s * u)) * p = 2 * (1000000 * (s * (u * p))) := by ring
    have hmillion : 1000000 ≤ 1000000 * p := Nat.le_mul_of_pos_right _ (by omega)
    omega
  have hlater : (m + d * 1000000 + 1) * u ≤ m' * u := Nat.mul_le_mul_right u (by omega)
  have hsum : (m + d * 1000000 + 1) * u = m * u + 1000000 * (d * u) + u := by ring
  have hsplit : (s + d) * u = s * u + d * u := Nat.add_mul _ _ _
  omega

/-! ## Texts -/

/-- The day of the epoch, counted from the first of January of the year 1. -/
def epochDay : Nat := 719162

/-- Whether `datetime` has the second. -/
def InRange (s : Nat) : Prop := epochDay * Iso.microsPerDay + s * 1000000 < Iso.maxMicros

instance InRange.decidable (s : Nat) : Decidable (InRange s) := inferInstanceAs (Decidable (_ < _))

/-- `datetime.fromtimestamp(s, tz=UTC).isoformat()` -/
def isoformat (s : Nat) : List Char := Iso.isoformat (epochDay * Iso.microsPerDay + s * 1000000)

theorem isoformat_injective {s s' : Nat} (hs : InRange s) (hs' : InRange s') (h : isoformat s = isoformat s') : s = s' := by
  have hread := Iso.fromisoformat_isoformat hs
  have hread' := Iso.fromisoformat_isoformat hs'
  unfold isoformat at h
  rw [h, hread'] at hread
  have hclock := congrArg Iso.DateTime.clock (Option.some.inj hread)
  simp only [Iso.ofUtc] at hclock
  omega

theorem length_pad (w n : Nat) : (Iso.pad w n).length = w := by
  induction w generalizing n with
  | zero => rfl
  | succ w ih => rw [Iso.pad, List.length_cons, ih]

/-- A whole second has no fraction, so all texts are of one length. -/
theorem length_isoformat (s : Nat) : (isoformat s).length = 25 := by
  have hwhole : (epochDay * Iso.microsPerDay + s * 1000000) % Iso.microsPerDay % 1000000 = 0 := by
    unfold epochDay Iso.microsPerDay
    omega
  have hoffset : "+00:00".toList.length = 6 := by decide
  simp only [isoformat, Iso.isoformat, Iso.writeDate, Iso.writeTime, hwhole, if_pos, List.length_append, List.length_cons,
    length_pad, List.length_nil, hoffset]

end Posix
