/-
Overlapping windows over a list: `size` elements each, every one `step`
elements after the one before, until one reaches the end.

Every element is in a window (`exists_window`), and two windows in a row share
what lies between the start of the second and the end of the first
(`isChain_windows`).
-/
import Mathlib.Data.List.Basic
import Mathlib.Data.List.Chain

namespace Windows

variable {α : Type*}

/-- The windows of a list. A step of nothing would not get on. -/
def windows (size step : Nat) (l : List α) : List (List α) :=
  if l.length ≤ size ∨ step = 0 then [l.take size]
  else l.take size :: windows size step (l.drop step)
termination_by l.length
decreasing_by
  rw [List.length_drop]
  omega

/-- `w` is the window of `l` that starts at `i`. -/
def IsWindow (size : Nat) (l : List α) (i : Nat) (w : List α) : Prop := i < l.length ∧ w = (l.drop i).take size

/-- Two windows in a row: the first does not reach the end. -/
def Next (size step : Nat) (l w w' : List α) : Prop :=
  ∃ i, i + size < l.length ∧ w = (l.drop i).take size ∧ w' = (l.drop (i + step)).take size

variable {size step : Nat} {l w : List α}

theorem windows_of_le (h : l.length ≤ size) : windows size step l = [l.take size] := by
  rw [windows, if_pos (.inl h)]

theorem windows_of_lt (h : size < l.length) (hstep : step ≠ 0) :
    windows size step l = l.take size :: windows size step (l.drop step) := by
  rw [windows, if_neg (by omega)]

theorem head?_windows (size step : Nat) (l : List α) : (windows size step l).head? = .some (l.take size) := by
  rw [windows]
  split <;> rfl

theorem exists_of_mem_windows (hstep : step ≠ 0) (hle : step ≤ size) (hl : l ≠ []) (hw : w ∈ windows size step l) :
    ∃ i, IsWindow size l i w := by
  induction hlen : l.length using Nat.strongRecOn generalizing l with
  | _ n ih =>
    by_cases hsize : l.length ≤ size
    · rw [windows_of_le hsize, List.mem_singleton] at hw
      exact ⟨0, List.length_pos_iff.2 hl, hw⟩
    rw [windows_of_lt (by omega) hstep, List.mem_cons] at hw
    rcases hw with rfl | hw
    · exact ⟨0, List.length_pos_iff.2 hl, rfl⟩
    · have hrest : l.drop step ≠ [] := List.length_pos_iff.1 (by rw [List.length_drop]; omega)
      obtain ⟨i, hi, rfl⟩ := ih (l.drop step).length (by rw [List.length_drop]; omega) hrest hw rfl
      rw [List.length_drop] at hi
      exact ⟨step + i, by omega, by rw [List.drop_drop]⟩

theorem exists_window (hstep : step ≠ 0) (hle : step ≤ size) {a : α} (ha : a ∈ l) : ∃ w ∈ windows size step l, a ∈ w := by
  induction hlen : l.length using Nat.strongRecOn generalizing l with
  | _ n ih =>
    by_cases hsize : l.length ≤ size
    · rw [windows_of_le hsize]
      exact ⟨_, List.mem_singleton_self _, by rwa [List.take_of_length_le hsize]⟩
    rw [windows_of_lt (by omega) hstep]
    rw [← List.take_append_drop step l, List.mem_append] at ha
    rcases ha with ha | ha
    · refine ⟨_, List.mem_cons_self, ?_⟩
      exact (List.take_prefix_take_left hle).subset ha
    · obtain ⟨w, hw, haw⟩ := ih (l.drop step).length (by rw [List.length_drop]; omega) ha rfl
      exact ⟨w, List.mem_cons_of_mem _ hw, haw⟩

theorem Next.of_drop {k : Nat} {w' : List α} (h : Next size step (l.drop k) w w') : Next size step l w w' := by
  obtain ⟨i, hi, rfl, rfl⟩ := h
  rw [List.length_drop] at hi
  exact ⟨k + i, by omega, by rw [List.drop_drop], by rw [List.drop_drop, Nat.add_assoc]⟩

/-- Each window but the first starts one step after the window before it. -/
theorem isChain_windows (hstep : step ≠ 0) : (windows size step l).IsChain (Next size step l) := by
  induction hlen : l.length using Nat.strongRecOn generalizing l with
  | _ n ih =>
    by_cases hsize : l.length ≤ size
    · rw [windows_of_le hsize]
      exact List.isChain_singleton _
    rw [windows_of_lt (by omega) hstep]
    have hrest := (ih (l.drop step).length (by rw [List.length_drop]; omega) rfl).imp fun _ _ => Next.of_drop (l := l)
    refine List.isChain_cons.2 ⟨fun w hw => ?_, hrest⟩
    rw [head?_windows] at hw
    obtain rfl := Option.some.inj hw
    exact ⟨0, by omega, rfl, by rw [Nat.zero_add]⟩

/-! ## What windows share -/

theorem IsWindow.sublist {i : Nat} (h : IsWindow size l i w) : w.Sublist l := by
  rw [h.2]
  exact (List.take_sublist _ _).trans (List.drop_sublist _ _)

theorem IsWindow.length_le {i : Nat} (h : IsWindow size l i w) : w.length ≤ size := by
  rw [h.2]
  exact List.length_take_le _ _

theorem IsWindow.ne_nil {i : Nat} (h : IsWindow size l i w) (hsize : size ≠ 0) : w ≠ [] := by
  rw [h.2]
  refine List.length_pos_iff.1 ?_
  rw [List.length_take, List.length_drop]
  have hi := h.1
  omega

theorem Next.isWindow {w' : List α} (h : Next size step l w w') (hle : step ≤ size) :
    (∃ i, IsWindow size l i w) ∧ ∃ i, IsWindow size l i w' := by
  obtain ⟨i, hi, rfl, rfl⟩ := h
  exact ⟨⟨i, by omega, rfl⟩, i + step, by omega, rfl⟩

theorem Next.shared {w' : List α} (h : Next size step l w w') (hle : step ≤ size) :
    ∃ before own shared after rest, l = before ++ (own ++ (shared ++ after)) ∧ own.length = step ∧
      shared.length = size - step ∧ w = own ++ shared ∧ w' = shared ++ rest := by
  obtain ⟨i, hi, rfl, rfl⟩ := h
  have hfirst : (l.drop i).drop step = l.drop (i + step) := List.drop_drop
  have hsecond : (l.drop (i + step)).drop (size - step) = l.drop (i + size) := by
    rw [List.drop_drop]
    congr 1
    omega
  refine ⟨l.take i, (l.drop i).take step, (l.drop (i + step)).take (size - step), l.drop (i + size),
    (l.drop (i + size)).take step, ?_, ?_, ?_, ?_, ?_⟩
  · rw [← hsecond, List.take_append_drop, ← hfirst, List.take_append_drop, List.take_append_drop]
  · rw [List.length_take, List.length_drop]
    omega
  · rw [List.length_take, List.length_drop]
    omega
  · rw [← hfirst, ← List.take_add, Nat.add_sub_cancel' hle]
  · rw [← hsecond, ← List.take_add, Nat.sub_add_cancel hle]

end Windows
