/-
A line of elements with a position in it.

Moving the position keeps the line. What shortens a zipper at the ends of its
line alone (`Trimmed`) keeps the current element and leaves a stretch of the
line around it (`Trimmed.line`).
-/
import Mathlib.Data.List.Infix

/-- The elements before the current one, the last of them nearest, and after
it, the first of them nearest. -/
@[ext] structure Zipper (α : Type*) where
  back : List α
  current : α
  forward : List α
  deriving DecidableEq, Repr

namespace Zipper

variable {α : Type*}

def line (z : Zipper α) : List α := z.back ++ z.current :: z.forward

/-- What is after the current element gives way to a new one. -/
def push (a : α) (z : Zipper α) : Zipper α := ⟨z.back ++ [z.current], a, []⟩

def replace (a : α) (z : Zipper α) : Zipper α := { z with current := a }

def goBack (z : Zipper α) : Option (Zipper α) :=
  z.back.getLast?.map fun a => ⟨z.back.dropLast, a, z.current :: z.forward⟩

def goForward (z : Zipper α) : Option (Zipper α) :=
  z.forward.head?.map fun a => ⟨z.back ++ [z.current], a, z.forward.tail⟩

/-- At most so many elements on either side, the nearest ones. -/
def cut (n : Nat) (z : Zipper α) : Zipper α := ⟨z.back.drop (z.back.length - n), z.current, z.forward.take n⟩

/-- Elements may be gone from the two ends. -/
structure Trimmed (z w : Zipper α) : Prop where
  back : w.back <:+ z.back
  current : w.current = z.current
  forward : w.forward <+: z.forward

theorem goBack_eq_some {z w : Zipper α} :
    z.goBack = .some w ↔ ∃ init a, z.back = init ++ [a] ∧ w = ⟨init, a, z.current :: z.forward⟩ := by
  unfold goBack
  rw [Option.map_eq_some_iff]
  constructor
  · rintro ⟨a, ha, rfl⟩
    exact ⟨z.back.dropLast, a, (List.dropLast_append_getLast? a ha).symm, rfl⟩
  · rintro ⟨init, a, hback, rfl⟩
    exact ⟨a, by rw [hback, List.getLast?_concat], by rw [hback, List.dropLast_concat]⟩

theorem goForward_eq_some {z w : Zipper α} :
    z.goForward = .some w ↔ ∃ a rest, z.forward = a :: rest ∧ w = ⟨z.back ++ [z.current], a, rest⟩ := by
  unfold goForward
  cases z.forward with
  | nil => simp
  | cons a rest => simp [eq_comm]

theorem line_goBack {z w : Zipper α} (h : z.goBack = .some w) : w.line = z.line := by
  obtain ⟨init, a, hback, rfl⟩ := goBack_eq_some.1 h
  simp [line, hback]

theorem line_goForward {z w : Zipper α} (h : z.goForward = .some w) : w.line = z.line := by
  obtain ⟨a, rest, hforward, rfl⟩ := goForward_eq_some.1 h
  simp [line, hforward]

theorem goForward_goBack {z w : Zipper α} (h : z.goBack = .some w) : w.goForward = .some z := by
  obtain ⟨init, a, hback, rfl⟩ := goBack_eq_some.1 h
  refine goForward_eq_some.2 ⟨z.current, z.forward, rfl, ?_⟩
  ext1
  · exact hback
  · rfl
  · rfl

theorem trimmed_cut (n : Nat) (z : Zipper α) : z.Trimmed (z.cut n) :=
  ⟨List.drop_suffix _ _, rfl, List.take_prefix _ _⟩

theorem length_back_cut (n : Nat) (z : Zipper α) : (z.cut n).back.length ≤ n := by
  simp only [cut, List.length_drop]
  omega

theorem length_forward_cut (n : Nat) (z : Zipper α) : (z.cut n).forward.length ≤ n := by
  simp only [cut, List.length_take]
  omega

theorem cut_eq_self {n : Nat} {z : Zipper α} (hback : z.back.length ≤ n) (hforward : z.forward.length ≤ n) :
    z.cut n = z := by
  ext1
  · simp [cut, Nat.sub_eq_zero_of_le hback]
  · rfl
  · exact List.take_of_length_le hforward

namespace Trimmed

variable {z w v : Zipper α}

@[refl] theorem refl (z : Zipper α) : Trimmed z z := ⟨List.suffix_refl _, rfl, List.prefix_refl _⟩

theorem trans (h : Trimmed z w) (h' : Trimmed w v) : Trimmed z v :=
  ⟨h'.back.trans h.back, h'.current.trans h.current, h'.forward.trans h.forward⟩

/-- What is left is a stretch of the line, and nothing between its elements is gone. -/
theorem line (h : Trimmed z w) : w.line <:+: z.line := by
  obtain ⟨oldest, hback⟩ := h.back
  obtain ⟨farthest, hforward⟩ := h.forward
  refine ⟨oldest, farthest, ?_⟩
  simp only [Zipper.line, ← hback, ← hforward, h.current, List.append_assoc, List.cons_append]

theorem length_le (h : Trimmed z w) :
    w.back.length + w.forward.length ≤ z.back.length + z.forward.length :=
  Nat.add_le_add h.back.length_le h.forward.length_le

theorem goForward {z' w' : Zipper α} (h : Trimmed z w) (hz : z.goForward = .some z') (hw : w.goForward = .some w') :
    Trimmed z' w' := by
  obtain ⟨a, rest, hforward, rfl⟩ := goForward_eq_some.1 hz
  obtain ⟨b, rest', hforward', rfl⟩ := goForward_eq_some.1 hw
  have hprefix := h.forward
  rw [hforward, hforward', List.cons_prefix_cons] at hprefix
  obtain ⟨oldest, hback⟩ := h.back
  refine ⟨⟨oldest, ?_⟩, hprefix.1, hprefix.2⟩
  rw [← List.append_assoc, hback, h.current]

end Trimmed

end Zipper
