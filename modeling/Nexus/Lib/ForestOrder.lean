/-
The nodes of a forest in preorder: each before what is below it, the trees of
siblings one after the other.

A forest is given by its roots and the children of each node. Where every node
has one parent and a way up to a root, a preorder exists (`exists_preordered`)
and has each node once (`Preordered.nodup`).
-/
import Mathlib.Logic.Relation
import Nexus.Lib.ParentChain

namespace ForestOrder
open ParentChain

variable {α κ : Type} {children : α → List α}

/-- The nodes at and below the given ones, in preorder. No node is `height` or
more levels below them. -/
inductive Preordered (children : α → List α) : Nat → List α → List α → Prop
  | nil {height} : Preordered children height [] []
  | cons {height x rest below after} : Preordered children height (children x) below →
      Preordered children (height + 1) rest after → Preordered children (height + 1) (x :: rest) (x :: (below ++ after))

section Members

variable {height : Nat} {xs l : List α} {x y : α}

theorem Preordered.eq_nil (h : Preordered children height [] l) : l = [] := by
  cases h
  rfl

theorem Preordered.mem_of_mem (h : Preordered children height xs l) (hx : x ∈ xs) : x ∈ l := by
  induction h with
  | nil => cases hx
  | cons _ _ _ ih =>
    rcases List.mem_cons.1 hx with rfl | hx
    · exact List.mem_cons_self
    · exact List.mem_cons_of_mem _ (List.mem_append_right _ (ih hx))

theorem Preordered.child_mem (h : Preordered children height xs l) (hx : x ∈ l) (hy : y ∈ children x) : y ∈ l := by
  induction h with
  | nil => cases hx
  | cons hbelow _ ihbelow ihafter =>
    rcases List.mem_cons.1 hx with rfl | hx
    · exact List.mem_cons_of_mem _ (List.mem_append_left _ (hbelow.mem_of_mem hy))
    · rcases List.mem_append.1 hx with hx | hx
      · exact List.mem_cons_of_mem _ (List.mem_append_left _ (ihbelow hx))
      · exact List.mem_cons_of_mem _ (List.mem_append_right _ (ihafter hx))

/-- A preorder has the nodes that are at or below the given ones. -/
theorem Preordered.mem_iff (h : Preordered children height xs l) :
    y ∈ l ↔ ∃ x ∈ xs, Relation.ReflTransGen (fun a b => b ∈ children a) x y := by
  constructor
  · intro hy
    induction h with
    | nil => cases hy
    | @cons _ x _ _ _ _ _ ihbelow ihafter =>
      rcases List.mem_cons.1 hy with rfl | hy
      · exact ⟨y, List.mem_cons_self, .refl⟩
      · rcases List.mem_append.1 hy with hy | hy
        · obtain ⟨c, hc, hcy⟩ := ihbelow hy
          exact ⟨x, List.mem_cons_self, .head hc hcy⟩
        · obtain ⟨r, hr, hry⟩ := ihafter hy
          exact ⟨r, List.mem_cons_of_mem _ hr, hry⟩
  · rintro ⟨x, hx, hxy⟩
    induction hxy with
    | refl => exact h.mem_of_mem hx
    | tail _ hyz ih => exact h.child_mem ih hyz

end Members

section Chains

variable {parent : κ → Option κ} {key : α → κ} {nodes : α → Prop}

/-- Where the ways up are no longer than `bound`, the nodes have a preorder. -/
theorem exists_preordered (hchildren : ∀ x, nodes x → ∀ y ∈ children x, nodes y ∧ parent (key y) = .some (key x))
    {bound : Nat} (hbound : ∀ x, nodes x → ∀ up, Chain parent (key x) up → up.length ≤ bound) :
    ∀ (height : Nat) (xs : List α),
      (∀ x ∈ xs, nodes x ∧ ∃ up, Chain parent (key x) up ∧ bound < up.length + height) →
      ∃ l, Preordered children height xs l
  | height, [], _ => ⟨[], .nil⟩
  | 0, x :: xs, h => by
    obtain ⟨hx, up, hup, hlt⟩ := h x List.mem_cons_self
    have hle := hbound x hx up hup
    omega
  | height + 1, x :: xs, h => by
    obtain ⟨hx, up, hup, hlt⟩ := h x List.mem_cons_self
    obtain ⟨after, hafter⟩ := exists_preordered hchildren hbound (height + 1) xs fun y hy => h y (List.mem_cons_of_mem _ hy)
    obtain ⟨below, hbelow⟩ := exists_preordered hchildren hbound height (children x) fun y hy => by
      obtain ⟨hnode, hparent⟩ := hchildren x hx y hy
      refine ⟨hnode, key y :: up, .child hparent hup, ?_⟩
      rw [List.length_cons]
      omega
    exact ⟨x :: (below ++ after), .cons hbelow hafter⟩

/-- The nodes of a preorder are told apart by their keys: none is below itself,
and none is below two siblings. -/
theorem Preordered.nodup (hchildren : ∀ x, nodes x → ∀ y ∈ children x, nodes y ∧ parent (key y) = .some (key x))
    (hchain : ∀ x, nodes x → ∃ up, Chain parent (key x) up) (hsiblings : ∀ x, nodes x → ((children x).map key).Nodup)
    {height : Nat} {xs l : List α} (h : Preordered children height xs l) : ∀ {p : Option κ}, (xs.map key).Nodup →
    (∀ x ∈ xs, nodes x ∧ parent (key x) = p) →
    (l.map key).Nodup ∧ ∀ z ∈ l, ∃ x ∈ xs, ∃ up, Chain parent (key z) up ∧ key x ∈ up := by
  induction h with
  | nil => exact fun _ _ => ⟨List.nodup_nil, fun z hz => by cases hz⟩
  | @cons height x rest below after hbelow hafter ihbelow ihafter =>
    intro p hnodup hnodes
    rw [List.map_cons, List.nodup_cons] at hnodup
    obtain ⟨hx, hparent⟩ := hnodes x List.mem_cons_self
    obtain ⟨upx, hupx⟩ := hchain x hx
    obtain ⟨hbelownodup, hbelowup⟩ := ihbelow (hsiblings x hx) fun y hy => hchildren x hx y hy
    obtain ⟨hafternodup, hafterup⟩ := ihafter hnodup.2 fun y hy => hnodes y (List.mem_cons_of_mem _ hy)
    -- what is below `x` has `x` on its way up, after one of the children of `x`
    have hthrough : ∀ z ∈ below, ∃ up, Chain parent (key z) up ∧ key x ∈ up ∧ key z ≠ key x := by
      intro z hz
      obtain ⟨c, hc, up, hup, hcup⟩ := hbelowup z hz
      obtain ⟨upc, hupc, hsuffix⟩ := hup.suffix hcup
      have hupc' := hupc.unique (.child (hchildren x hx c hc).2 hupx)
      subst hupc'
      refine ⟨up, hup, hsuffix.mem (List.mem_cons_of_mem _ hupx.mem), fun heq => ?_⟩
      rw [heq] at hup
      rw [hup.unique hupx] at hcup
      exact hupx.not_mem_of_child (hchildren x hx c hc).2 hcup
    have hapart : ∀ z ∈ after, ∀ up, Chain parent (key z) up → key x ∉ up := by
      intro z hz up hup hxup
      obtain ⟨y, hy, up', hup', hyup⟩ := hafterup z hz
      rw [hup'.unique hup] at hyup
      have hsame := hup.eq_of_parent_eq hxup hyup (hparent.trans (hnodes y (List.mem_cons_of_mem _ hy)).2.symm)
      exact hnodup.1 (hsame ▸ List.mem_map_of_mem hy)
    constructor
    · rw [List.map_cons, List.map_append, List.nodup_cons, List.nodup_append]
      refine ⟨fun hmem => ?_, hbelownodup, hafternodup, fun a ha b hb hab => ?_⟩
      · rcases List.mem_append.1 hmem with hmem | hmem
        · obtain ⟨z, hz, heq⟩ := List.mem_map.1 hmem
          obtain ⟨up, -, -, hne⟩ := hthrough z hz
          exact hne heq
        · obtain ⟨z, hz, heq⟩ := List.mem_map.1 hmem
          exact hapart z hz upx (heq ▸ hupx) hupx.mem
      · obtain ⟨z, hz, rfl⟩ := List.mem_map.1 ha
        obtain ⟨z', hz', rfl⟩ := List.mem_map.1 hb
        obtain ⟨up, hup, hxup, -⟩ := hthrough z hz
        exact hapart z' hz' up (hab ▸ hup) hxup
    · intro z hz
      rcases List.mem_cons.1 hz with rfl | hz
      · exact ⟨z, List.mem_cons_self, upx, hupx, hupx.mem⟩
      · rcases List.mem_append.1 hz with hz | hz
        · obtain ⟨up, hup, hxup, -⟩ := hthrough z hz
          exact ⟨x, List.mem_cons_self, up, hup, hxup⟩
        · obtain ⟨y, hy, up, hup, hyup⟩ := hafterup z hz
          exact ⟨y, List.mem_cons_of_mem _ hy, up, hup, hyup⟩

end Chains

end ForestOrder
