/-
One element for several of a list: it stands where the first of them stood, or
at the end if there were none, and they go.

`perm_standIn` says what the list then holds, and the `increasing_standIn`
lemmas that an order by a key is kept when the new element's key is the first
one's, or is beyond them all.
-/
import Mathlib.Data.List.Basic
import Mathlib.Data.List.Perm.Basic

namespace StandIn

variable {α β : Type} {gone : α → Bool} {key : α → Nat} {p : α} {l : List α}

def standIn (gone : α → Bool) (p : α) : List α → List α
  | [] => [p]
  | a :: l => if gone a then p :: l.filter (fun b => !gone b) else a :: standIn gone p l

theorem perm_standIn : (standIn gone p l).Perm (p :: l.filter fun b => !gone b) := by
  induction l with
  | nil => exact .refl _
  | cons a l ih =>
    simp only [standIn]
    split
    next h => simp [h]
    next h =>
      have hkeep : (a :: l).filter (fun b => !gone b) = a :: l.filter fun b => !gone b := by simp [h]
      rw [hkeep]
      exact (ih.cons a).trans (.swap p a _)

theorem standIn_of_none (h : ∀ a ∈ l, gone a = false) : standIn gone p l = l ++ [p] := by
  induction l with
  | nil => rfl
  | cons a l ih =>
    have hrest := ih fun b hb => h b (List.mem_cons_of_mem a hb)
    simp [standIn, h a (by simp), hrest]

theorem map_standIn {gone' : β → Bool} (f : α → β) (h : ∀ a ∈ l, gone' (f a) = gone a) :
    (standIn gone p l).map f = standIn gone' (f p) (l.map f) := by
  induction l with
  | nil => rfl
  | cons a l ih =>
    have hrest : ∀ b ∈ l, gone' (f b) = gone b := fun b hb => h b (List.mem_cons_of_mem a hb)
    simp only [standIn, List.map_cons, h a (by simp)]
    split
    · rw [List.map_cons, List.filter_map]
      congr 2
      exact List.filter_congr fun b hb => by simp [hrest b hb]
    · rw [List.map_cons, ih hrest]

theorem increasing_standIn (hl : l.Pairwise fun a b => key a < key b) {first : α} (hfirst : first ∈ l)
    (hgone : gone first = true) (hkey : key p = key first) (hle : ∀ a ∈ l, gone a = true → key first ≤ key a) :
    (standIn gone p l).Pairwise fun a b => key a < key b := by
  induction l with
  | nil => simp at hfirst
  | cons a l ih =>
    obtain ⟨ha, hl⟩ := List.pairwise_cons.1 hl
    simp only [standIn]
    split
    next h =>
      have hpa : key p ≤ key a := by
        rw [hkey]
        exact hle a (by simp) h
      refine List.pairwise_cons.2 ⟨fun b hb => ?_, hl.filter _⟩
      have hab := ha b (List.mem_filter.1 hb).1
      omega
    next h =>
      have hin : first ∈ l := by
        rcases List.mem_cons.1 hfirst with rfl | hin
        · exact absurd hgone h
        · exact hin
      refine List.pairwise_cons.2 ⟨fun b hb => ?_, ih hl hin fun c hc => hle c (List.mem_cons_of_mem a hc)⟩
      rcases List.mem_cons.1 (perm_standIn.mem_iff.1 hb) with rfl | hb
      · rw [hkey]
        exact ha first hin
      · exact ha b (List.mem_filter.1 hb).1

theorem increasing_standIn_of_none (hl : l.Pairwise fun a b => key a < key b) (hnone : ∀ a ∈ l, gone a = false)
    (hkey : ∀ a ∈ l, key a < key p) : (standIn gone p l).Pairwise fun a b => key a < key b := by
  rw [standIn_of_none hnone, List.pairwise_append]
  refine ⟨hl, List.pairwise_singleton _ _, fun a ha b hb => ?_⟩
  obtain rfl := List.mem_singleton.1 hb
  exact hkey a ha

end StandIn
