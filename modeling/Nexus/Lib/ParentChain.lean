/-
The way from a node up to a root, where a node has at most one parent.

A node has at most one chain (`Chain.unique`), and a chain never comes back to
a node (`Chain.nodup`): nodes that have chains form a forest.
-/
import Mathlib.Data.List.Nodup
import Mathlib.Data.List.Perm.Subperm

namespace ParentChain

/-- The nodes from one up to its root. -/
inductive Chain {κ : Type} (parent : κ → Option κ) : κ → List κ → Prop
  | root {x} : parent x = .none → Chain parent x [x]
  | child {x y up} : parent x = .some y → Chain parent y up → Chain parent x (x :: up)

variable {κ : Type} {parent : κ → Option κ} {x y : κ} {l l' : List κ}

theorem Chain.eq_cons (h : Chain parent x l) : ∃ up, l = x :: up := by
  cases h with
  | root => exact ⟨[], rfl⟩
  | child _ _ => exact ⟨_, rfl⟩

theorem Chain.mem (h : Chain parent x l) : x ∈ l := by
  obtain ⟨up, rfl⟩ := h.eq_cons
  exact List.mem_cons_self

theorem Chain.unique (h : Chain parent x l) (h' : Chain parent x l') : l = l' := by
  induction h generalizing l' with
  | root hx =>
    cases h' with
    | root _ => rfl
    | child hx' _ => rw [hx] at hx'; cases hx'
  | child hx _ ih =>
    cases h' with
    | root hx' => rw [hx] at hx'; cases hx'
    | child hx' h' =>
      rw [hx] at hx'
      obtain rfl := Option.some.inj hx'
      rw [ih h']

theorem Chain.suffix (h : Chain parent x l) (hy : y ∈ l) : ∃ l', Chain parent y l' ∧ l' <:+ l := by
  induction h with
  | root hx =>
    obtain rfl := List.mem_singleton.1 hy
    exact ⟨_, .root hx, List.suffix_rfl⟩
  | child hx h ih =>
    rcases List.mem_cons.1 hy with rfl | hy
    · exact ⟨_, .child hx h, List.suffix_rfl⟩
    · obtain ⟨l', hl', hsuffix⟩ := ih hy
      exact ⟨l', hl', hsuffix.trans (List.suffix_cons _ _)⟩

theorem Chain.nodup (h : Chain parent x l) : l.Nodup := by
  induction h with
  | root => exact List.nodup_singleton _
  | @child x y up hx h ih =>
    refine List.nodup_cons.2 ⟨fun hmem => ?_, ih⟩
    obtain ⟨l', hl', hsuffix⟩ := h.suffix hmem
    have hlength := hsuffix.length_le
    rw [hl'.unique (.child hx h), List.length_cons] at hlength
    omega

theorem Chain.not_mem_of_child (h : Chain parent x l) (hy : parent y = .some x) : y ∉ l :=
  (List.nodup_cons.1 (Chain.child hy h).nodup).1

theorem Chain.eq_of_parent_eq {a b : κ} (h : Chain parent x l) (ha : a ∈ l) (hb : b ∈ l) (hp : parent a = parent b) :
    a = b := by
  induction h with
  | root => rw [List.mem_singleton.1 ha, List.mem_singleton.1 hb]
  | child hx h ih =>
    rcases List.mem_cons.1 ha with rfl | ha'
    · rcases List.mem_cons.1 hb with rfl | hb'
      · rfl
      · exact absurd hb' (h.not_mem_of_child (hp ▸ hx))
    · rcases List.mem_cons.1 hb with rfl | hb'
      · exact absurd ha' (h.not_mem_of_child (hp.trans hx))
      · exact ih ha' hb'

/-- A chain among finitely many nodes has no more nodes than they are. -/
theorem Chain.length_le (h : Chain parent x l) {nodes : List κ} (hsub : ∀ y ∈ l, y ∈ nodes) : l.length ≤ nodes.length :=
  (List.subperm_of_subset h.nodup hsub).length_le

/-- The way up from a node, if it ends within `n` steps. -/
def walk (parent : κ → Option κ) : Nat → κ → Option (List κ)
  | 0, _ => .none
  | n + 1, x => match parent x with
    | .none => .some [x]
    | .some y => (walk parent n y).map (x :: ·)

theorem Chain.of_walk {n : Nat} (h : walk parent n x = .some l) : Chain parent x l := by
  induction n generalizing x l with
  | zero => cases h
  | succ n ih =>
    unfold walk at h
    split at h
    next hx =>
      cases h
      exact .root hx
    next y hx =>
      obtain ⟨up, hup, rfl⟩ := Option.map_eq_some_iff.1 h
      exact .child hx (ih hup)

end ParentChain
