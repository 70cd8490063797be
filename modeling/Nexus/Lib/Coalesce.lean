/-
Elements of a list put together in groups, as long as each joins the one before
and the group's weight stays within a capacity.

The groups put end to end are the list (`flatten_coalesce`), each is a chain of
elements that join (`isChain_of_mem_coalesce`), and none weighs more than the
capacity if no element does (`weight_le_of_mem_coalesce`).
-/
import Mathlib.Data.List.Chain
import Mathlib.Algebra.BigOperators.Group.List.Basic
import Mathlib.Algebra.Ring.Nat

namespace Coalesce

variable {α : Type*} (joins : α → α → Bool) (weight : α → Nat) (capacity : Nat)

/-- The groups, with the current one so far: its last element is `a`. -/
def coalesceFrom (current : List α) (a : α) : List α → List (List α)
  | [] => [current ++ [a]]
  | b :: l =>
    if ((current ++ [a]).map weight).sum + weight b ≤ capacity ∧ joins a b then coalesceFrom (current ++ [a]) b l
    else (current ++ [a]) :: coalesceFrom [] b l

def coalesce : List α → List (List α)
  | [] => []
  | a :: l => coalesceFrom joins weight capacity [] a l

variable {joins weight capacity} {current l g : List α} {a : α}

theorem flatten_coalesceFrom : (coalesceFrom joins weight capacity current a l).flatten = current ++ a :: l := by
  induction l generalizing current a with
  | nil => simp [coalesceFrom]
  | cons b l ih =>
    rw [coalesceFrom]
    split
    · rw [ih, List.append_assoc, List.singleton_append]
    · rw [List.flatten_cons, ih, List.nil_append, List.append_assoc, List.singleton_append]

/-- **The groups end to end are the list.** -/
theorem flatten_coalesce (l : List α) : (coalesce joins weight capacity l).flatten = l := by
  cases l with
  | nil => rfl
  | cons a l => exact flatten_coalesceFrom

theorem isChain_of_mem_coalesceFrom (h : (current ++ [a]).IsChain fun a b => joins a b = true)
    (hg : g ∈ coalesceFrom joins weight capacity current a l) : g ≠ [] ∧ g.IsChain fun a b => joins a b = true := by
  induction l generalizing current a with
  | nil =>
    rw [coalesceFrom, List.mem_singleton] at hg
    rw [hg]
    exact ⟨by simp, h⟩
  | cons b l ih =>
    rw [coalesceFrom] at hg
    split at hg
    next hjoin =>
      refine ih (List.isChain_append.2 ⟨h, List.isChain_singleton b, fun x hx y hy => ?_⟩) hg
      obtain rfl := Option.some.inj (by simpa using hx)
      obtain rfl := Option.some.inj (by simpa using hy)
      exact hjoin.2
    next =>
      rcases List.mem_cons.1 hg with rfl | hg
      · exact ⟨by simp, h⟩
      · exact ih (List.isChain_singleton b) hg

theorem isChain_of_mem_coalesce (hg : g ∈ coalesce joins weight capacity l) :
    g ≠ [] ∧ g.IsChain fun a b => joins a b = true := by
  cases l with
  | nil => cases hg
  | cons a l => exact isChain_of_mem_coalesceFrom (List.isChain_singleton a) hg

theorem weight_le_of_mem_coalesceFrom (h : ((current ++ [a]).map weight).sum ≤ capacity) (hl : ∀ b ∈ l, weight b ≤ capacity)
    (hg : g ∈ coalesceFrom joins weight capacity current a l) : (g.map weight).sum ≤ capacity := by
  induction l generalizing current a with
  | nil =>
    rw [coalesceFrom, List.mem_singleton] at hg
    rwa [hg]
  | cons b l ih =>
    have hrest : ∀ c ∈ l, weight c ≤ capacity := fun c hc => hl c (List.mem_cons_of_mem _ hc)
    rw [coalesceFrom] at hg
    split at hg
    next hfits => exact ih (by simpa [Nat.add_assoc] using hfits.1) hrest hg
    next =>
      rcases List.mem_cons.1 hg with rfl | hg
      · exact h
      · exact ih (by simpa using hl b List.mem_cons_self) hrest hg

theorem weight_le_of_mem_coalesce (hl : ∀ a ∈ l, weight a ≤ capacity) (hg : g ∈ coalesce joins weight capacity l) :
    (g.map weight).sum ≤ capacity := by
  cases l with
  | nil => cases hg
  | cons a l =>
    refine weight_le_of_mem_coalesceFrom ?_ (fun b hb => hl b (List.mem_cons_of_mem _ hb)) hg
    simpa using hl a List.mem_cons_self

end Coalesce
