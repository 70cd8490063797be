/-
Row numbers, and the apportionment by largest remainders that is made of them.

Each share is rounded down, and the elements that come first by a key get one
more until the total is given out. Whatever the key, the parts add up to the
total (`sum_apportion`) when it is between the sum of the floors and that many
more; the rounded sum of the shares is (`floors_le_round`,
`round_le_floors_add_length`).
-/
import Mathlib.Algebra.BigOperators.Group.List.Basic
import Mathlib.Algebra.Order.BigOperators.Group.List
import Mathlib.Data.List.Sort
import Mathlib.Data.Rat.Floor

namespace Apportion

variable {α κ : Type*} [LinearOrder κ]

/-- `row_number() OVER (ORDER BY key)` -/
def rowNumber (key : α → κ) (l : List α) (a : α) : ℕ := (l.filter fun b => key b ≤ key a).length

theorem rowNumber_perm {key : α → κ} {l l' : List α} (h : l.Perm l') (a : α) : rowNumber key l a = rowNumber key l' a :=
  (h.filter _).length_eq

theorem length_filter_rowNumber_of_sorted {key : α → κ} {l : List α} (hl : l.Pairwise fun a b => key a < key b) (r : ℕ) :
    (l.filter fun a => rowNumber key l a ≤ r).length = min r l.length := by
  induction l generalizing r with
  | nil => simp
  | cons a l ih =>
    obtain ⟨ha, hl⟩ := List.pairwise_cons.1 hl
    have hself : rowNumber key (a :: l) a = 1 := by
      have hnone : l.filter (fun b => key b ≤ key a) = [] :=
        List.filter_eq_nil_iff.2 fun b hb => by simpa using ha b hb
      unfold rowNumber
      rw [List.filter_cons_of_pos (by simp), hnone]
      rfl
    have hrest : ∀ b ∈ l, rowNumber key (a :: l) b = rowNumber key l b + 1 := fun b hb => by
      unfold rowNumber
      rw [List.filter_cons_of_pos (by simpa using (ha b hb).le), List.length_cons]
    cases r with
    | zero =>
      have hnone : (a :: l).filter (fun b => rowNumber key (a :: l) b ≤ 0) = [] := by
        refine List.filter_eq_nil_iff.2 fun b hb => ?_
        rcases List.mem_cons.1 hb with rfl | hb
        · simp [hself]
        · simp [hrest b hb]
      rw [hnone]
      simp
    | succ r =>
      have hcongr : l.filter (fun b => rowNumber key (a :: l) b ≤ r + 1) = l.filter fun b => rowNumber key l b ≤ r :=
        List.filter_congr fun b hb => by simp [hrest b hb]
      rw [List.filter_cons_of_pos (by simp [hself]), List.length_cons, hcongr, ih hl, List.length_cons]
      omega

/-- With distinct keys, as many rows are among the first `r` as there can be. -/
theorem length_filter_rowNumber {key : α → κ} {l : List α} (hl : (l.map key).Nodup) (r : ℕ) :
    (l.filter fun a => rowNumber key l a ≤ r).length = min r l.length := by
  have hperm := List.perm_insertionSort (fun a b => key a ≤ key b) l
  have : Std.Total fun a b : α => key a ≤ key b := ⟨fun a b => le_total _ _⟩
  have : IsTrans α fun a b => key a ≤ key b := ⟨fun a b c => le_trans⟩
  have hnodup : ((l.insertionSort fun a b => key a ≤ key b).map key).Nodup := (hperm.map key).nodup_iff.2 hl
  have hsorted : (l.insertionSort fun a b => key a ≤ key b).Pairwise fun a b => key a < key b :=
    ((List.pairwise_insertionSort (fun a b => key a ≤ key b) l).and (List.pairwise_map.1 hnodup)).imp
      fun h => lt_of_le_of_ne h.1 h.2
  have hcongr : (l.filter fun a => rowNumber key l a ≤ r) =
      l.filter fun a => rowNumber key (l.insertionSort fun a b => key a ≤ key b) a ≤ r :=
    List.filter_congr fun a _ => by rw [rowNumber_perm hperm]
  rw [hcongr, ← (hperm.filter _).length_eq, length_filter_rowNumber_of_sorted hsorted, hperm.length_eq]

/-! ## The apportionment -/

def floors (share : α → ℚ) (l : List α) : ℤ := (l.map fun a => ⌊share a⌋).sum

/-- The part of an element: its share rounded down, and one more for the first ones. -/
def apportion (key : α → κ) (share : α → ℚ) (total : ℤ) (l : List α) (a : α) : ℤ :=
  ⌊share a⌋ + if (rowNumber key l a : ℤ) ≤ total - floors share l then 1 else 0

theorem apportion_eq (key : α → κ) (share : α → ℚ) (total : ℤ) (l : List α) (a : α) :
    apportion key share total l a = ⌊share a⌋ ∨ apportion key share total l a = ⌊share a⌋ + 1 := by
  unfold apportion
  split <;> simp

theorem sum_map_ite_one (l : List α) (p : α → Prop) [DecidablePred p] :
    (l.map fun a => if p a then (1 : ℤ) else 0).sum = (l.filter fun a => p a).length := by
  induction l with
  | nil => rfl
  | cons a l ih =>
    rw [List.map_cons, List.sum_cons, ih]
    by_cases h : p a
    · rw [if_pos h, List.filter_cons_of_pos (by simpa using h), List.length_cons]
      omega
    · rw [if_neg h, List.filter_cons_of_neg (by simpa using h)]
      omega

/-- **The parts add up to the total.** -/
theorem sum_apportion {key : α → κ} {share : α → ℚ} {total : ℤ} {l : List α} (hl : (l.map key).Nodup)
    (hlow : floors share l ≤ total) (hhigh : total ≤ floors share l + l.length) :
    (l.map (apportion key share total l)).sum = total := by
  have hsplit : (l.map (apportion key share total l)).sum =
      floors share l + (l.map fun a => if (rowNumber key l a : ℤ) ≤ total - floors share l then (1 : ℤ) else 0).sum := by
    rw [floors, ← List.sum_map_add]
    rfl
  obtain ⟨r, hr⟩ := Int.eq_ofNat_of_zero_le (Int.sub_nonneg.2 hlow)
  have hcount := length_filter_rowNumber hl r
  have hcongr : (l.filter fun a => (rowNumber key l a : ℤ) ≤ total - floors share l) =
      l.filter fun a => rowNumber key l a ≤ r := List.filter_congr fun a _ => by rw [hr]; simp
  rw [hsplit, sum_map_ite_one, hcongr, hcount]
  omega

theorem floors_le_sum (share : α → ℚ) (l : List α) : (floors share l : ℚ) ≤ (l.map share).sum := by
  induction l with
  | nil => simp [floors]
  | cons a l ih =>
    have ha := Int.floor_le (share a)
    simp only [floors, List.map_cons, List.sum_cons, Int.cast_add] at ih ⊢
    linarith

theorem sum_le_floors_add_length (share : α → ℚ) (l : List α) : (l.map share).sum ≤ floors share l + l.length := by
  induction l with
  | nil => simp [floors]
  | cons a l ih =>
    have ha := (Int.lt_floor_add_one (share a)).le
    simp only [floors, List.map_cons, List.sum_cons, Int.cast_add, List.length_cons, Nat.cast_add, Nat.cast_one] at ih ⊢
    linarith

theorem floors_le_round (share : α → ℚ) (l : List α) : floors share l ≤ round (l.map share).sum := by
  rw [round_eq]
  refine Int.le_floor.2 ?_
  have := floors_le_sum share l
  linarith

theorem round_le_floors_add_length (share : α → ℚ) (l : List α) : round (l.map share).sum ≤ floors share l + l.length := by
  have h := sum_le_floors_add_length share l
  rw [round_eq]
  refine Int.lt_add_one_iff.1 (Int.floor_lt.2 ?_)
  push_cast
  linarith

end Apportion
