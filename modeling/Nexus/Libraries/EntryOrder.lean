/-
The order of one library's entries.

With one entry at a position, `inOrder` is the only list of the library's
entries with increasing positions (`inOrder_eq`). `normalize_positions` leaves
that order and numbers it from zero, and moves nothing of another library
(`inOrder_renumbered`, `inLibrary_renumbered`).
-/
import Nexus.Libraries.EntryRows
import Mathlib.Data.List.Sort

namespace Nexus.LibraryEntries
open RowLocks

namespace Entries

abbrev inLibrary (v : Entries) (l : Uuid) : Entries := v.filter fun e => e.libraryId == l

variable {v v' : Entries} {l l' : Uuid} {a b e : LibraryEntry}

theorem mem_inLibrary : e ∈ v.inLibrary l ↔ e ∈ v ∧ e.libraryId = l := by simp [List.mem_filter]

/-! ## Increasing positions -/

theorem comesBefore_total (a b : LibraryEntry) : comesBefore a b = true ∨ comesBefore b a = true := by
  simp only [comesBefore, Bool.or_eq_true, Bool.and_eq_true, decide_eq_true_eq, beq_iff_eq, Instant, Uuid]
  omega

theorem comesBefore_trans {c : LibraryEntry} (hab : comesBefore a b = true) (hbc : comesBefore b c = true) :
    comesBefore a c = true := by
  simp only [comesBefore, Bool.or_eq_true, Bool.and_eq_true, decide_eq_true_eq, beq_iff_eq, Instant, Uuid] at *
  omega

instance : Std.Total fun a b => comesBefore a b = true := ⟨comesBefore_total⟩

instance : IsTrans LibraryEntry fun a b => comesBefore a b = true := ⟨fun _ _ _ => comesBefore_trans⟩

theorem perm_inOrder : (v.inOrder l).Perm (v.inLibrary l) := List.perm_insertionSort _ _

theorem mem_inOrder : e ∈ v.inOrder l ↔ e ∈ v ∧ e.libraryId = l := perm_inOrder.mem_iff.trans mem_inLibrary

theorem inOrder_congr (h : v.inLibrary l = v'.inLibrary l) : v.inOrder l = v'.inOrder l :=
  congrArg (List.insertionSort fun a b => comesBefore a b = true) h

theorem inOrder_eq {es : Entries} (hperm : es.Perm (v.inLibrary l))
    (hes : es.Pairwise fun a b => a.position < b.position) : v.inOrder l = es := by
  have hsorted : es.Pairwise fun a b => comesBefore a b = true := hes.imp fun h => by simp [comesBefore, h]
  refine (perm_inOrder.trans hperm.symm).eq_of_pairwise ?_ (List.pairwise_insertionSort _ _) hsorted
  intro a b ha hb hab hba
  have hpos : a.position = b.position := by
    simp only [comesBefore, Bool.or_eq_true, Bool.and_eq_true, decide_eq_true_eq, beq_iff_eq] at hab hba
    omega
  have hnd : (es.map LibraryEntry.position).Nodup := List.pairwise_map.2 (hes.imp fun h => h.ne)
  exact List.inj_on_of_nodup_map hnd ((perm_inOrder.trans hperm.symm).mem_iff.1 ha) hb hpos

theorem increasing_inOrder (hd : entryStorage.deferred v = true) :
    (v.inOrder l).Pairwise fun a b => a.position < b.position := by
  simp only [entryStorage, decide_eq_true_eq] at hd
  have hin : ((v.inOrder l).map fun e => (e.libraryId, e.position)).Nodup :=
    ((perm_inOrder.map _).nodup_iff).2 (hd.sublist (List.filter_sublist.map _))
  have hne := List.pairwise_map.1 hin
  have hsorted : (v.inOrder l).Pairwise fun a b => comesBefore a b = true := List.pairwise_insertionSort _ _
  refine List.Pairwise.imp_of_mem (fun {a b} ha hb h => ?_) (hsorted.and hne)
  obtain ⟨hab, hpair⟩ := h
  have hlib : a.libraryId = b.libraryId := (mem_inOrder.1 ha).2.trans (mem_inOrder.1 hb).2.symm
  have hpos : a.position ≠ b.position := fun h => hpair (by rw [hlib, h])
  simp only [comesBefore, Bool.or_eq_true, Bool.and_eq_true, decide_eq_true_eq, beq_iff_eq] at hab
  omega

theorem nodup_inOrder (hu : entryStorage.unique v = true) : (v.inOrder l).Nodup := by
  simp only [entryStorage, Bool.and_eq_true, decide_eq_true_eq] at hu
  exact perm_inOrder.nodup_iff.2 ((hu.1.of_map _).filter _)

theorem lt_nextPosition (he : e ∈ v) (hl : e.libraryId = l) : e.position < v.nextPosition l := by
  have hmem : e.position + 1 ∈ (v.inLibrary l).map fun e => e.position + 1 :=
    List.mem_map.2 ⟨e, mem_inLibrary.2 ⟨he, hl⟩, rfl⟩
  have hle (n : Nat) : ∀ {ns : List Nat}, n ∈ ns → n ≤ ns.foldr max 0 := by
    intro ns hn
    induction ns with
    | nil => simp at hn
    | cons m ns ih =>
      rcases List.mem_cons.1 hn with rfl | hn
      · exact Nat.le_max_left _ _
      · exact (ih hn).trans (Nat.le_max_right _ _)
  exact hle _ hmem

/-! ## Numbering the order -/

/-- The moves of `normalize_positions`. -/
def renumbering (v : Entries) (l : Uuid) : List EntryWrite := (v.inOrder l).zipIdx.filterMap fun (e, position) =>
  if e.position ≠ position then .some (.move e position) else .none

/-- The entry at its number in the order. -/
def numbered (v : Entries) (l : Uuid) (e : LibraryEntry) : LibraryEntry :=
  if e.libraryId = l then { e with position := (v.inOrder l).idxOf e } else e

@[simp] theorem numbered_row : (v.numbered l e).row = e.row := by
  simp only [numbered]
  split <;> rfl

@[simp] theorem numbered_libraryId : (v.numbered l e).libraryId = e.libraryId := congrArg (fun r => r.2.1) numbered_row

/-- What a list of moves does to one entry. -/
def moved (moves : List (LibraryEntry × Nat)) (x : LibraryEntry) : LibraryEntry :=
  moves.foldl (fun x m => if x.row = m.1.row then { x with position := m.2 } else x) x

theorem after_moves (moves : List (LibraryEntry × Nat)) :
    entryStorage.after (moves.map fun m => .move m.1 m.2) v = v.map (moved moves) := by
  induction moves generalizing v with
  | nil => exact (List.map_id v).symm
  | cons m moves ih =>
    rw [List.map_cons, after_cons, ih, EntryWrite.apply, List.map_map]
    rfl

theorem moved_of_not_mem : ∀ {moves : List (LibraryEntry × Nat)} {x : LibraryEntry}, (∀ m ∈ moves, x.row ≠ m.1.row) →
    moved moves x = x
  | [], _, _ => rfl
  | m :: moves, x, h => by
    have hm : ¬ x.row = m.1.row := h m (by simp)
    rw [moved, List.foldl_cons, if_neg hm]
    exact moved_of_not_mem fun m' hm' => h m' (List.mem_cons_of_mem m hm')

theorem moved_of_mem : ∀ {moves : List (LibraryEntry × Nat)} {x : LibraryEntry} {n : Nat},
    (moves.map fun m => m.1.row).Nodup → (x, n) ∈ moves → moved moves x = { x with position := n }
  | m :: moves, x, n, hnd, hx => by
    obtain ⟨hm, hnd⟩ := List.nodup_cons.1 hnd
    rw [moved, List.foldl_cons]
    rcases List.mem_cons.1 hx with rfl | hx
    · rw [if_pos rfl]
      refine moved_of_not_mem fun m' hm' heq => hm ?_
      exact List.mem_map.2 ⟨m', hm', heq.symm⟩
    · have hne : ¬ x.row = m.1.row := fun heq => hm (List.mem_map.2 ⟨(x, n), hx, heq⟩)
      rw [if_neg hne]
      exact moved_of_mem hnd hx

theorem renumbering_eq : v.renumbering l =
    ((v.inOrder l).zipIdx.filter fun m => decide (m.1.position ≠ m.2)).map fun m => .move m.1 m.2 := by
  rw [renumbering, ← List.filterMap_eq_map, List.filterMap_filter]
  refine List.filterMap_congr fun m _ => ?_
  simp

theorem row_injective (hu : entryStorage.unique v = true) (ha : a ∈ v) (hb : b ∈ v) (h : a.row = b.row) : a = b :=
  row_of_id hu ha hb (congrArg Prod.fst h)

theorem nodup_rows_zipIdx (hu : entryStorage.unique v = true) :
    ((v.inOrder l).zipIdx.map fun m => m.1.row).Nodup := by
  have hfst : ((v.inOrder l).zipIdx.map fun m => m.1.row) = (v.inOrder l).map LibraryEntry.row := by
    have hmap := congrArg (List.map LibraryEntry.row) (List.zipIdx_map_fst 0 (v.inOrder l))
    rwa [List.map_map] at hmap
  rw [hfst]
  refine List.Nodup.map_on (fun a ha b hb hrow => ?_) (nodup_inOrder hu)
  exact row_injective hu (mem_inOrder.1 ha).1 (mem_inOrder.1 hb).1 hrow

/-- **Renumbering moves each entry of the library to its number, and no other.** -/
theorem after_renumbering (hu : entryStorage.unique v = true) :
    entryStorage.after (v.renumbering l) v = v.map (v.numbered l) := by
  rw [renumbering_eq, after_moves]
  refine List.map_congr_left fun x hx => ?_
  simp only [numbered]
  split
  next hl =>
    have hin : x ∈ v.inOrder l := mem_inOrder.2 ⟨hx, hl⟩
    have hidx : (x, (v.inOrder l).idxOf x) ∈ (v.inOrder l).zipIdx := by
      rw [List.mem_zipIdx_iff_getElem?]
      exact List.getElem?_idxOf hin
    by_cases hpos : x.position = (v.inOrder l).idxOf x
    · -- the number it has already: it is not among the moves
      have hsame : ({ x with position := (v.inOrder l).idxOf x } : LibraryEntry) = x := by rw [← hpos]
      rw [hsame]
      refine moved_of_not_mem fun m hm hrow => ?_
      obtain ⟨hm, hne⟩ := List.mem_filter.1 hm
      have hmx : m = (x, (v.inOrder l).idxOf x) := List.inj_on_of_nodup_map (nodup_rows_zipIdx hu) hm hidx hrow.symm
      subst hmx
      simp [hpos] at hne
    · exact moved_of_mem ((nodup_rows_zipIdx hu).sublist (List.filter_sublist.map _))
        (List.mem_filter.2 ⟨hidx, by simpa using hpos⟩)
  next hl =>
    refine moved_of_not_mem fun m hm hrow => hl ?_
    have hm := (mem_inOrder.1 (List.fst_mem_of_mem_zipIdx (List.mem_filter.1 hm).1)).2
    have hlib : x.libraryId = m.1.libraryId := congrArg (fun r => r.2.1) hrow
    exact hlib.trans hm

theorem inLibrary_renumbered (hu : entryStorage.unique v = true) (h : l' ≠ l) :
    (entryStorage.after (v.renumbering l) v).inLibrary l' = v.inLibrary l' := by
  rw [after_renumbering hu]
  simp only [inLibrary, List.filter_map, Function.comp_def, numbered_libraryId]
  refine (List.map_congr_left fun e he => ?_).trans (List.map_id _)
  have hl' := (mem_inLibrary.1 he).2
  simp [numbered, hl', h]

/-- **The order stays, with the numbers from zero as positions.** -/
theorem inOrder_renumbered (hu : entryStorage.unique v = true) :
    (entryStorage.after (v.renumbering l) v).inOrder l = (v.inOrder l).mapIdx fun i e => { e with position := i } := by
  have hmap : (v.inOrder l).map (v.numbered l) = (v.inOrder l).mapIdx fun i e => { e with position := i } := by
    refine List.ext_getElem (by simp) fun i h₁ h₂ => ?_
    have hi : i < (v.inOrder l).length := by simpa using h₁
    have hl := (mem_inOrder.1 (List.getElem_mem hi)).2
    simp [numbered, hl, (nodup_inOrder hu).idxOf_getElem i hi]
  refine inOrder_eq ?_ ?_
  · rw [after_renumbering hu, ← hmap]
    have hin : inLibrary (v.map (v.numbered l)) l = (v.inLibrary l).map (v.numbered l) := by
      simp only [inLibrary, List.filter_map, Function.comp_def, numbered_libraryId]
    rw [hin]
    exact perm_inOrder.map _
  · rw [List.pairwise_iff_getElem]
    intro i j hi hj hij
    simpa using hij

theorem rows_mapIdx {es : Entries} : (es.mapIdx fun i e => ({ e with position := i } : LibraryEntry)).map LibraryEntry.row =
    es.map LibraryEntry.row := by
  refine List.ext_getElem (by simp) fun i h₁ h₂ => ?_
  simp [LibraryEntry.row]

theorem positions_mapIdx {es : Entries} :
    (es.mapIdx fun i e => ({ e with position := i } : LibraryEntry)).map LibraryEntry.position = List.range es.length := by
  refine List.ext_getElem (by simp) fun i h₁ h₂ => ?_
  simp

end Entries

end Nexus.LibraryEntries
