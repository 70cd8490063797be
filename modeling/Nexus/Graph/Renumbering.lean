/-
What a reorder leaves: the rows of the surface with the keys of their places,
every other row as it was.

Keys of one width sort as their numbers do (`orderKey_lt`), so up to 9999999999
occurrences the surface reads back in the order it was given; with more, the
key of place 10000000000 sorts before the one of place 9999999999 and it does
not (`orderedEdges_renumbered`).
-/
import Nexus.Graph.Adjacency
import Mathlib.Data.Char
import Mathlib.Data.List.Lex
import Mathlib.Data.List.Dedup

namespace Nexus.Graph
open Relational ExceptFacts

/-! ## Keys of one width -/

theorem pad_lt (w : Nat) : ∀ {m n : Nat}, m < n → n < 10 ^ w → Iso.pad w m < Iso.pad w n := by
  induction w with
  | zero =>
    intro m n h hn
    rw [Nat.pow_zero] at hn
    omega
  | succ w ih =>
    intro m n h hn
    have hw : 0 < 10 ^ w := Nat.pow_pos (by omega)
    have hdigit : n / 10 ^ w < 10 := by
      rw [Nat.div_lt_iff_lt_mul hw, Nat.mul_comm]
      simpa [Nat.pow_succ] using hn
    have hle : m / 10 ^ w ≤ n / 10 ^ w := Nat.div_le_div_right (by omega)
    rw [Iso.pad, Iso.pad, List.cons_lt_cons_iff]
    rcases Nat.lt_or_eq_of_le hle with hlt | heq
    · left
      have hall : ∀ b < 10, ∀ a < b, a.digitChar < b.digitChar := by decide
      exact hall _ hdigit _ hlt
    · right
      refine ⟨by rw [heq], ih ?_ (Nat.mod_lt n hw)⟩
      have hm := Nat.div_add_mod m (10 ^ w)
      have hn := Nat.div_add_mod n (10 ^ w)
      rw [heq] at hm
      omega

theorem isDigit_of_mem_pad {c : Char} (w : Nat) : ∀ {n : Nat}, n < 10 ^ w → c ∈ Iso.pad w n → c.isDigit = true := by
  induction w with
  | zero =>
    intro n _ hc
    cases hc
  | succ w ih =>
    intro n hn hc
    have hw : 0 < 10 ^ w := Nat.pow_pos (by omega)
    rw [Iso.pad, List.mem_cons] at hc
    rcases hc with rfl | hc
    · have hdigit : n / 10 ^ w < 10 := by
        rw [Nat.div_lt_iff_lt_mul hw, Nat.mul_comm]
        simpa [Nat.pow_succ] using hn
      have hall : ∀ a < 10, a.digitChar.isDigit = true := by decide
      exact hall _ hdigit
    · exact ih (Nat.mod_lt n hw) hc

theorem orderKey_lt (coll : Collation) {m n : Nat} (h : m < n) (hn : n < 10 ^ 10) :
    orderKey m ≠ orderKey n ∧ coll.le (orderKey m) (orderKey n) = true := by
  have hm : m < 10 ^ 10 := by omega
  have hlt := pad_lt 10 h hn
  rw [orderKey, orderKey, if_pos hm, if_pos hn]
  refine ⟨ne_of_lt hlt, (coll.digits _ _ ?_ ?_).2 (le_of_lt hlt)⟩
  · exact fun c hc => isDigit_of_mem_pad 10 hm hc
  · exact fun c hc => isDigit_of_mem_pad 10 hn hc

theorem orderKey_overflow (coll : Collation) :
    orderKey 9999999999 ≠ orderKey 10000000000 ∧ coll.le (orderKey 9999999999) (orderKey 10000000000) = false := by
  have hlast : orderKey 9999999999 = "9999999999".toList := by decide +kernel
  have hnext : orderKey 10000000000 = "10000000000".toList := by decide +kernel
  rw [hlast, hnext]
  refine ⟨by decide, ?_⟩
  rw [← Bool.not_eq_true, coll.digits _ _ (List.all_eq_true.1 (by decide)) (List.all_eq_true.1 (by decide))]
  decide

/-! ## The order of a surface -/

section Order

variable (coll : Collation)

theorem comesBefore_total (e f : ResourceEdge) : e.comesBefore coll f ∨ f.comesBefore coll e := by
  unfold ResourceEdge.comesBefore
  by_cases h : e.key = f.key
  · simp only [h, if_true]
    exact Nat.le_total _ _
  · rw [if_neg h, if_neg (Ne.symm h)]
    exact coll.total _ _

theorem comesBefore_trans {e f g : ResourceEdge} (hef : e.comesBefore coll f) (hfg : f.comesBefore coll g) :
    e.comesBefore coll g := by
  unfold ResourceEdge.comesBefore at *
  by_cases h₁ : e.key = f.key
  · by_cases h₂ : f.key = g.key
    · rw [if_pos h₁] at hef
      rw [if_pos h₂] at hfg
      rw [if_pos (h₁.trans h₂)]
      exact Nat.le_trans hef hfg
    · rw [if_neg h₂] at hfg
      rw [if_neg (by rwa [h₁]), h₁]
      exact hfg
  · rw [if_neg h₁] at hef
    by_cases h₂ : f.key = g.key
    · rw [if_neg (by rwa [← h₂]), ← h₂]
      exact hef
    · rw [if_neg h₂] at hfg
      have hne : e.key ≠ g.key := by
        intro heq
        rw [← heq] at hfg
        exact h₁ (coll.antisymm _ _ hef hfg)
      rw [if_neg hne]
      exact coll.trans _ _ _ hef hfg

instance : Std.Total (ResourceEdge.comesBefore coll) := ⟨comesBefore_total coll⟩

instance : IsTrans ResourceEdge (ResourceEdge.comesBefore coll) := ⟨fun _ _ _ => comesBefore_trans coll⟩

theorem id_eq_of_comesBefore {e f : ResourceEdge} (hef : e.comesBefore coll f) (hfe : f.comesBefore coll e) :
    e.id = f.id := by
  unfold ResourceEdge.comesBefore at hef hfe
  by_cases h : e.key = f.key
  · rw [if_pos h] at hef
    rw [if_pos h.symm] at hfe
    exact Nat.le_antisymm hef hfe
  · rw [if_neg h] at hef
    rw [if_neg (Ne.symm h)] at hfe
    exact absurd (coll.antisymm _ _ hef hfe) h

end Order

section Surface

variable {coll : Collation} {userId : Uuid} {source : ResourceRef} {s t : Edges}

/-- The surface's rows, in table order. -/
abbrev surfaceRows (userId : Uuid) (source : ResourceRef) (s : Edges) : List ResourceEdge :=
  s.rows.filter (onSurface userId source)

theorem perm_orderedEdges : (orderedEdges coll userId source s).Perm (surfaceRows userId source s) :=
  List.perm_insertionSort _ _

theorem mem_orderedEdges {e : ResourceEdge} :
    e ∈ orderedEdges coll userId source s ↔ e ∈ s.rows ∧ onSurface userId source e = true := by
  rw [perm_orderedEdges.mem_iff, List.mem_filter]

theorem sorted_orderedEdges : (orderedEdges coll userId source s).Pairwise (ResourceEdge.comesBefore coll) :=
  List.pairwise_insertionSort _ _

theorem nodup_ids_surfaceRows : ((surfaceRows userId source s).map ResourceEdge.id).Nodup := by
  have hall : (s.rows.map ResourceEdge.id).Nodup := s.nodup
  exact hall.sublist (List.filter_sublist.map _)

theorem nodup_ids_orderedEdges : ((orderedEdges coll userId source s).map ResourceEdge.id).Nodup :=
  (perm_orderedEdges.map _).nodup_iff.2 nodup_ids_surfaceRows

theorem eq_orderedEdges {l : List ResourceEdge} (hperm : l.Perm (surfaceRows userId source s))
    (hsorted : l.Pairwise (ResourceEdge.comesBefore coll)) : orderedEdges coll userId source s = l := by
  refine (perm_orderedEdges.trans hperm.symm).eq_of_pairwise ?_ sorted_orderedEdges hsorted
  intro e f he hf hef hfe
  refine eq_of_id (mem_orderedEdges.1 he).1 (List.mem_filter.1 (hperm.mem_iff.1 hf)).1 ?_
  exact id_eq_of_comesBefore coll hef hfe

theorem orderedEdges_deleteWhere (p : ResourceEdge → Bool) :
    orderedEdges coll userId source (s.deleteWhere p) = (orderedEdges coll userId source s).filter fun e => !p e := by
  refine eq_orderedEdges ?_ (sorted_orderedEdges.filter _)
  have hrows : surfaceRows userId source (s.deleteWhere p) = (surfaceRows userId source s).filter fun e => !p e := by
    rw [surfaceRows, surfaceRows, Store.rows_deleteWhere, List.filter_filter, List.filter_filter]
    refine List.filter_congr fun e _ => ?_
    exact Bool.and_comm _ _
  rw [hrows]
  exact perm_orderedEdges.filter _

theorem orderedEdgeForOccurrence_eq_ok {occurrenceId : Uuid} {edge : ResourceEdge} :
    orderedEdgeForOccurrence userId source occurrenceId s = .ok edge ↔
      edge ∈ s.rows ∧ edge.id = occurrenceId ∧ onSurface userId source edge = true := by
  unfold orderedEdgeForOccurrence
  have hfind : (s.toTable.find? occurrenceId).filter (onSurface userId source) = .some edge ↔
      edge ∈ s.rows ∧ edge.id = occurrenceId ∧ onSurface userId source edge = true := by
    rw [Option.filter_eq_some_iff, Table.find?_eq_some, and_assoc]
    rfl
  rw [← hfind]
  cases (s.toTable.find? occurrenceId).filter (onSurface userId source) with
  | none => simp only [reduceCtorEq]
  | some row => simp only [Except.ok.injEq, Option.some.injEq]

/-! ## Flushes -/

@[simp] theorem setKey_id (e : ResourceEdge) (key : Text) : (e.setKey key).id = e.id := rfl

@[simp] theorem setKey_setKey (e : ResourceEdge) (key key' : Text) : (e.setKey key).setKey key' = e.setKey key' := rfl

theorem onSurface_setKey {e : ResourceEdge} {key : Text} (h : onSurface userId source e = true) (v : Uuid)
    (src : ResourceRef) : onSurface v src (e.setKey key) = onSurface v src e := by
  simp only [onSurface, EdgeCreate.isOrdered, Bool.and_eq_true] at h
  simp only [onSurface, EdgeCreate.isOrdered, ResourceEdge.setKey, h.2.1.1.2, Option.isSome_some]

theorem rows_flushKeys {newKey : Uuid → Text} : ∀ {ids : List Uuid} {s t : Edges}, flushKeys newKey ids s = .ok t →
    t.rows = s.rows.map fun e => if e.id ∈ ids then e.setKey (newKey e.id) else e
  | [], s, t, h => by
    cases h
    simp
  | id :: rest, s, t, h => by
    unfold flushKeys at h
    split at h
    · cases h
    rename_i u hupdate
    rw [rows_flushKeys h, Store.rows_update? hupdate, List.map_map]
    refine List.map_congr_left fun e _ => ?_
    have hkey : edgeSchema.key e = e.id := rfl
    rw [Function.comp_apply, hkey]
    by_cases hid : e.id = id
    · rw [if_pos hid, setKey_id, hid, setKey_setKey]
      simp
    · simp [hid]

/-- An accepted reorder was given the surface's rows, each once, and leaves them
with the keys of their places. -/
theorem reorderOrderedEdges_ok {edges : List ResourceEdge}
    (h : reorderOrderedEdges coll userId source edges s = .ok t) :
    (edges.map ResourceEdge.id).Perm ((surfaceRows userId source s).map ResourceEdge.id) ∧
      t.rows = s.rows.map fun e =>
        if onSurface userId source e then e.setKey (orderKey (rankOf (edges.map ResourceEdge.id) e.id)) else e := by
  obtain ⟨hmatch, h⟩ := check_eq_ok.1 h
  obtain ⟨hdistinct, h⟩ := check_eq_ok.1 h
  obtain ⟨u, htemporary, h⟩ := bind_eq_ok.1 h
  simp only [not_or, not_not, Bool.not_eq_true, Bool.not_eq_false', Bool.and_eq_true, List.all_eq_true,
    decide_eq_true_eq] at hmatch
  have hnodup : (edges.map ResourceEdge.id).Nodup := by
    rw [← List.dedup_eq_self]
    exact (List.dedup_sublist _).eq_of_length (by simpa using hdistinct)
  have hperm : (edges.map ResourceEdge.id).Perm ((orderedEdges coll userId source s).map ResourceEdge.id) :=
    (List.perm_ext_iff_of_nodup hnodup nodup_ids_orderedEdges).2 fun id => ⟨hmatch.1.2 id, hmatch.1.1 id⟩
  refine ⟨hperm.trans (perm_orderedEdges.map _), ?_⟩
  rw [rows_flushKeys h, rows_flushKeys htemporary, List.map_map]
  refine List.map_congr_left fun e he => ?_
  have hwritten : (e.id ∈ ((orderedEdges coll userId source s).map ResourceEdge.id).insertionSort (· ≤ ·)) ↔
      onSurface userId source e = true := by
    rw [List.mem_insertionSort, List.mem_map]
    constructor
    · intro ⟨f, hf, hid⟩
      obtain ⟨hfs, hon⟩ := mem_orderedEdges.1 hf
      rwa [eq_of_id he hfs hid.symm]
    · exact fun hon => ⟨e, mem_orderedEdges.2 ⟨he, hon⟩, rfl⟩
  rw [Function.comp_apply]
  by_cases hon : onSurface userId source e = true
  · rw [if_pos (hwritten.2 hon), if_pos hon, setKey_id, if_pos (hwritten.2 hon), setKey_setKey]
  · rw [if_neg (mt hwritten.1 hon), if_neg (mt hwritten.1 hon), if_neg hon]

/-! ## Reading back -/

/-- The rows of a list with the keys of their places. -/
def numbered (edges : List ResourceEdge) : List ResourceEdge :=
  edges.map fun e => e.setKey (orderKey (rankOf (edges.map ResourceEdge.id) e.id))

theorem key_numbered {edges : List ResourceEdge} (hnodup : (edges.map ResourceEdge.id).Nodup) {i : Nat}
    (hi : i < (numbered edges).length) : (numbered edges)[i].sourceOrderKey = .some (orderKey (i + 1)) := by
  have hlen : i < edges.length := by simpa [numbered] using hi
  have hrank : rankOf (edges.map ResourceEdge.id) edges[i].id = i + 1 := by
    have hids : i < (edges.map ResourceEdge.id).length := by simpa using hlen
    have hget : (edges.map ResourceEdge.id)[i] = edges[i].id := List.getElem_map _
    rw [rankOf, ← hget, hnodup.idxOf_getElem]
  simp [numbered, ResourceEdge.setKey, hrank]

theorem surfaceRows_renumbered {ids : List Uuid}
    (h : t.rows = s.rows.map fun e => if onSurface userId source e then e.setKey (orderKey (rankOf ids e.id)) else e) :
    surfaceRows userId source t =
      (surfaceRows userId source s).map fun e => e.setKey (orderKey (rankOf ids e.id)) := by
  have hon : ∀ e : ResourceEdge, onSurface userId source
      (if onSurface userId source e then e.setKey (orderKey (rankOf ids e.id)) else e) = onSurface userId source e := by
    intro e
    by_cases he : onSurface userId source e = true
    · rw [if_pos he, onSurface_setKey he]
    · rw [if_neg he]
  rw [surfaceRows, h, List.filter_map]
  have hsame : s.rows.filter (onSurface userId source ∘ fun e =>
      if onSurface userId source e then e.setKey (orderKey (rankOf ids e.id)) else e) =
      surfaceRows userId source s := List.filter_congr fun e _ => hon e
  rw [hsame]
  refine List.map_congr_left fun e he => ?_
  rw [if_pos (List.mem_filter.1 he).2]

theorem surfaceRows_renumbered_of_ne {ids : List Uuid} {v : Uuid} {src : ResourceRef}
    (h : t.rows = s.rows.map fun e => if onSurface userId source e then e.setKey (orderKey (rankOf ids e.id)) else e)
    (hne : (v, src) ≠ (userId, source)) : surfaceRows v src t = surfaceRows v src s := by
  have hapart : ∀ e : ResourceEdge, onSurface userId source e = true → onSurface v src e = false := by
    intro e he
    by_contra hother
    simp only [onSurface, Bool.and_eq_true, beq_iff_eq, Bool.not_eq_false] at he hother
    exact hne (Prod.ext (hother.1.1.symm.trans he.1.1) (hother.1.2.symm.trans he.1.2))
  rw [surfaceRows, h, List.filter_map]
  have hsame : s.rows.filter (onSurface v src ∘ fun e =>
      if onSurface userId source e then e.setKey (orderKey (rankOf ids e.id)) else e) = surfaceRows v src s := by
    refine List.filter_congr fun e _ => ?_
    rw [Function.comp_apply]
    split
    next he => rw [onSurface_setKey he]
    next => rfl
  rw [hsame]
  refine (List.map_congr_left fun e he => ?_).trans (List.map_id _)
  have hout : ¬ onSurface userId source e = true := by
    intro hother
    have hon := (List.mem_filter.1 he).2
    rw [hapart e hother] at hon
    cases hon
  rw [if_neg hout, id_eq]

theorem sorted_numbered (coll : Collation) {edges : List ResourceEdge} (hnodup : (edges.map ResourceEdge.id).Nodup) :
    (numbered edges).Pairwise (ResourceEdge.comesBefore coll) ↔ edges.length < 10 ^ 10 := by
  have hlength : (numbered edges).length = edges.length := List.length_map _
  have hkey : ∀ i (hi : i < (numbered edges).length), (numbered edges)[i].key = orderKey (i + 1) := by
    intro i hi
    rw [ResourceEdge.key, key_numbered hnodup hi, Option.getD_some]
  rw [List.pairwise_iff_getElem]
  constructor
  · intro hsorted
    by_contra hlong
    have hbefore := hsorted 9999999998 9999999999 (by omega) (by omega) (by omega)
    obtain ⟨hne, hle⟩ := orderKey_overflow coll
    rw [ResourceEdge.comesBefore, hkey, hkey, if_neg hne, hle] at hbefore
    cases hbefore
  · intro hshort i j hi hj hij
    obtain ⟨hne, hle⟩ := orderKey_lt coll (show i + 1 < j + 1 by omega) (show j + 1 < 10 ^ 10 by omega)
    rw [ResourceEdge.comesBefore, hkey, hkey, if_neg hne]
    exact hle

/-- **What a reorder writes**: the given rows, numbered; and the surface reads
them back in the given order as long as the numbers have one width. -/
theorem orderedEdges_renumbered {edges : List ResourceEdge} (hrows : ∀ e ∈ edges, e ∈ s.rows)
    (h : reorderOrderedEdges coll userId source edges s = .ok t) :
    (edges.map ResourceEdge.id).Nodup ∧ edges.Perm (surfaceRows userId source s) ∧
      (numbered edges).Perm (surfaceRows userId source t) ∧
      (orderedEdges coll userId source t = numbered edges ↔ edges.length < 10 ^ 10) := by
  obtain ⟨hids, hkeys⟩ := reorderOrderedEdges_ok h
  have hnodup : (edges.map ResourceEdge.id).Nodup := hids.nodup_iff.2 nodup_ids_surfaceRows
  have hperm : edges.Perm (surfaceRows userId source s) := by
    refine (List.perm_ext_iff_of_nodup (List.Nodup.of_map _ hnodup) (s.rows_nodup.filter _)).2 fun e => ?_
    constructor
    · intro he
      obtain ⟨f, hf, hid⟩ := List.mem_map.1 (hids.mem_iff.1 (List.mem_map_of_mem he))
      rwa [eq_of_id (hrows e he) (List.mem_filter.1 hf).1 hid.symm]
    · intro he
      obtain ⟨f, hf, hid⟩ := List.mem_map.1 (hids.mem_iff.2 (List.mem_map_of_mem he))
      rwa [eq_of_id (List.mem_filter.1 he).1 (hrows f hf) hid.symm]
  have hnumbered : (numbered edges).Perm (surfaceRows userId source t) := by
    rw [surfaceRows_renumbered hkeys]
    exact hperm.map _
  refine ⟨hnodup, hperm, hnumbered, ?_⟩
  rw [← sorted_numbered coll hnodup]
  constructor
  · intro heq
    rw [← heq]
    exact sorted_orderedEdges
  · exact eq_orderedEdges hnumbered

end Surface

end Nexus.Graph
