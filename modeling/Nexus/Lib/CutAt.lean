/-
A list cut at the first or at the last occurrence of an element.

What was put together is cut where it was joined, if the element is on the one
side only (`cutFirst_append`, `cutLast_append`).
-/
import Mathlib.Data.List.Basic

namespace CutAt

variable {α : Type*} [DecidableEq α]

/-- What is before the first `a`, and what is behind it if there is one. -/
def cutFirst (a : α) : List α → List α × Option (List α)
  | [] => ([], .none)
  | b :: l =>
    if b = a then ([], .some l)
    else
      let (before, behind) := cutFirst a l
      (b :: before, behind)

/-- What is behind the last `a`, and what is before it if there is one. -/
def cutLast (a : α) (l : List α) : Option (List α) × List α :=
  let (behind, before) := cutFirst a l.reverse
  (before.map List.reverse, behind.reverse)

theorem cutFirst_of_not_mem {a : α} {l : List α} (h : a ∉ l) : cutFirst a l = (l, .none) := by
  induction l with
  | nil => rfl
  | cons b l ih =>
    rw [List.mem_cons, not_or] at h
    rw [cutFirst, if_neg (Ne.symm h.1), ih h.2]

theorem cutFirst_append {a : α} {l : List α} (h : a ∉ l) (l' : List α) : cutFirst a (l ++ a :: l') = (l, .some l') := by
  induction l with
  | nil => rw [List.nil_append, cutFirst, if_pos rfl]
  | cons b l ih =>
    rw [List.mem_cons, not_or] at h
    rw [List.cons_append, cutFirst, if_neg (Ne.symm h.1), ih h.2]

theorem cutFirst_cases (a : α) (l : List α) :
    (a ∉ l ∧ cutFirst a l = (l, .none)) ∨
      ∃ before behind, l = before ++ a :: behind ∧ a ∉ before ∧ cutFirst a l = (before, .some behind) := by
  by_cases h : a ∈ l
  · obtain ⟨before, behind, rfl, hnot⟩ := List.eq_append_cons_of_mem h
    exact .inr ⟨before, behind, rfl, hnot, cutFirst_append hnot behind⟩
  · exact .inl ⟨h, cutFirst_of_not_mem h⟩

theorem cutLast_of_not_mem {a : α} {l : List α} (h : a ∉ l) : cutLast a l = (.none, l) := by
  rw [cutLast, cutFirst_of_not_mem (by rwa [List.mem_reverse])]
  simp

theorem cutLast_append {a : α} {l' : List α} (h : a ∉ l') (l : List α) : cutLast a (l ++ a :: l') = (.some l, l') := by
  rw [cutLast, List.reverse_append, List.reverse_cons, List.append_assoc, List.singleton_append,
    cutFirst_append (by rwa [List.mem_reverse])]
  simp

theorem cutLast_cases (a : α) (l : List α) :
    (a ∉ l ∧ cutLast a l = (.none, l)) ∨
      ∃ before behind, l = before ++ a :: behind ∧ a ∉ behind ∧ cutLast a l = (.some before, behind) := by
  by_cases h : a ∈ l
  · obtain ⟨behind, before, hrev, hnot⟩ := List.eq_append_cons_of_mem (List.mem_reverse.2 h)
    have hl : l = before.reverse ++ a :: behind.reverse := by
      rw [← List.reverse_reverse l, hrev]
      simp
    have hbehind : a ∉ behind.reverse := by rwa [List.mem_reverse]
    exact .inr ⟨before.reverse, behind.reverse, hl, hbehind, hl ▸ cutLast_append hbehind _⟩
  · exact .inl ⟨h, cutLast_of_not_mem h⟩

theorem cutFirst_subset (a : α) (l : List α) : (cutFirst a l).1 ⊆ l := by
  rcases cutFirst_cases a l with ⟨_, h⟩ | ⟨before, behind, hl, _, h⟩
  · rw [h]
    exact List.Subset.refl l
  · rw [h, hl]
    exact List.subset_append_left _ _

theorem not_mem_cutFirst (a : α) (l : List α) : a ∉ (cutFirst a l).1 := by
  rcases cutFirst_cases a l with ⟨hnot, h⟩ | ⟨before, behind, _, hnot, h⟩
  · rwa [h]
  · rwa [h]

theorem cutLast_subset (a : α) (l : List α) : (cutLast a l).2 ⊆ l := by
  rcases cutLast_cases a l with ⟨_, h⟩ | ⟨before, behind, hl, _, h⟩
  · rw [h]
    exact List.Subset.refl l
  · rw [h, hl]
    exact fun x hx => List.mem_append_right _ (List.mem_cons_of_mem _ hx)

theorem not_mem_cutLast (a : α) (l : List α) : a ∉ (cutLast a l).2 := by
  rcases cutLast_cases a l with ⟨hnot, h⟩ | ⟨before, behind, _, hnot, h⟩
  · rwa [h]
  · rwa [h]

end CutAt
