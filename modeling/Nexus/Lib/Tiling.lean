/-
Stretches of a line that lie end to end, each with its own text.

The text of such a run is what its stretches have at each position
(`getElem?_run`), and it ends where the last of them does (`stop_getLast`).
-/
import Mathlib.Data.List.Chain
import Mathlib.Algebra.Order.Ring.Int

namespace Tiling

variable {α β : Type*} (start : α → Int) (text : α → List β)

/-- Each stretch starts where the one before it stops. -/
def Tiles (l : List α) : Prop := l.IsChain fun a b => start b = start a + (text a).length

variable {start text} {a : α} {l : List α}

/-- At each position of a run one of its stretches has what the run has there. -/
theorem getElem?_run (h : Tiles start text (a :: l)) {i : Nat} (hi : i < ((a :: l).flatMap text).length) :
    ∃ b ∈ a :: l, ∃ k : Nat, start a + i = start b + k ∧ k < (text b).length ∧
      (text b)[k]? = ((a :: l).flatMap text)[i]? := by
  induction l generalizing a i with
  | nil =>
    rw [List.flatMap_singleton] at hi ⊢
    exact ⟨a, List.mem_singleton_self _, i, rfl, hi, rfl⟩
  | cons b l ih =>
    obtain ⟨hstart, hrest⟩ := List.isChain_cons_cons.1 h
    rw [List.flatMap_cons] at hi ⊢
    by_cases hfirst : i < (text a).length
    · exact ⟨a, List.mem_cons_self, i, rfl, hfirst, (List.getElem?_append_left hfirst).symm⟩
    · rw [List.length_append] at hi
      obtain ⟨c, hc, k, hpos, hk, heq⟩ := ih hrest (i := i - (text a).length) (by omega)
      refine ⟨c, List.mem_cons_of_mem _ hc, k, by omega, hk, ?_⟩
      rw [heq, List.getElem?_append_right (by omega)]

theorem stop_getLast (h : Tiles start text (a :: l)) :
    start ((a :: l).getLast (List.cons_ne_nil a l)) + (text ((a :: l).getLast (List.cons_ne_nil a l))).length =
      start a + ((a :: l).flatMap text).length := by
  induction l generalizing a with
  | nil => rw [List.flatMap_singleton, List.getLast_singleton]
  | cons b l ih =>
    obtain ⟨hstart, hrest⟩ := List.isChain_cons_cons.1 h
    have htext : (a :: b :: l).flatMap text = text a ++ (b :: l).flatMap text := List.flatMap_cons
    rw [List.getLast_cons_cons, ih hrest, htext, List.length_append]
    omega

end Tiling
