/-
`bisect_left`: the binary search for the first place of a sorted list whose
element is not below `x`. `bisectLeft_eq_countP` says it counts the elements
below `x`.
-/
import Mathlib.Data.List.GetD

namespace Bisection

def bisectLeft (a : List Nat) (x lo hi : Nat) : Nat :=
  if lo < hi then
    let mid := (lo + hi) / 2
    if a.getD mid 0 < x then bisectLeft a x (mid + 1) hi else bisectLeft a x lo mid
  else lo
termination_by hi - lo

/-- In a sorted list the elements below `x` are the first ones. -/
theorem getD_lt_iff {x : Nat} : ∀ {a : List Nat} {i : Nat}, a.Pairwise (· ≤ ·) → i < a.length →
    (a.getD i 0 < x ↔ i < a.countP (· < x))
  | b :: a, i, h, hi => by
    obtain ⟨hb, ha⟩ := List.pairwise_cons.1 h
    by_cases hbx : b < x
    · have hcount : (b :: a).countP (· < x) = a.countP (· < x) + 1 := by simp [hbx]
      rw [hcount]
      cases i with
      | zero => simp [hbx]
      | succ i =>
        have hi : i < a.length := by simpa using hi
        rw [List.getD_cons_succ, getD_lt_iff ha hi]
        omega
    · have hnone : (b :: a).countP (· < x) = 0 := by
        refine List.countP_eq_zero.2 fun c hc => ?_
        rcases List.mem_cons.1 hc with rfl | hc
        · simpa using hbx
        · have hbc := hb c hc
          simp only [decide_eq_true_eq]
          omega
      have hle : b ≤ (b :: a).getD i 0 := by
        cases i with
        | zero => simp
        | succ i =>
          have hi : i < a.length := by simpa using hi
          rw [List.getD_cons_succ, List.getD_eq_getElem _ _ hi]
          exact hb _ (List.getElem_mem hi)
      rw [hnone]
      omega

theorem bisectLeft_eq {a : List Nat} {x lo hi : Nat} (h : a.Pairwise (· ≤ ·)) (hlo : lo ≤ a.countP (· < x))
    (hhi : a.countP (· < x) ≤ hi) (hlen : hi ≤ a.length) : bisectLeft a x lo hi = a.countP (· < x) := by
  induction hn : hi - lo using Nat.strongRecOn generalizing lo hi with
  | ind n ih =>
    rw [bisectLeft]
    split
    next hlt =>
      have hin : (lo + hi) / 2 < a.length := by omega
      have hmid : a.getD ((lo + hi) / 2) 0 < x ↔ (lo + hi) / 2 < a.countP (· < x) := getD_lt_iff h hin
      dsimp only
      split
      next hx => exact ih (hi - ((lo + hi) / 2 + 1)) (by omega) (hmid.1 hx) hhi hlen rfl
      next hx =>
        have hge : a.countP (· < x) ≤ (lo + hi) / 2 := Nat.le_of_not_lt fun hno => hx (hmid.2 hno)
        exact ih ((lo + hi) / 2 - lo) (by omega) hlo hge (by omega) rfl
    next hge => omega

/-- **The search counts the elements below `x`.** -/
theorem bisectLeft_eq_countP {a : List Nat} {x : Nat} (h : a.Pairwise (· ≤ ·)) :
    bisectLeft a x 0 a.length = a.countP (· < x) :=
  bisectLeft_eq h (Nat.zero_le _) List.countP_le_length (Nat.le_refl _)

end Bisection
