/-
A viewer's Lectern as a list, and what the calls of the store do to that list.

The list is `sortedRows`: the rows by position, then time, then id. A call that
renumbers decides the list by the order it gives the ids
(`sortedRows_of_numbered`), so a placement is a move of a block whatever the
positions were. A call that appends at the row count, or puts rows back on the
positions they found, leaves the order to the comparison, and does what it says
exactly when no old position is in the way.
-/
import Mathlib.Data.List.Induction
import Mathlib.Data.List.Zip
import Nexus.Consumption.LecternOrder

namespace Nexus.Consumption
open Relational Transition

/-! ## The order of rows -/

namespace ConsumptionQueueItem

theorem before_iff {a b : ConsumptionQueueItem} : a.before b = true ↔
    a.position < b.position ∨ (a.position = b.position ∧ (a.addedAt < b.addedAt ∨ (a.addedAt = b.addedAt ∧ a.id ≤ b.id))) := by
  simp [before]

instance : Std.Total fun a b : ConsumptionQueueItem => a.before b = true where
  total a b := by
    simp only [before_iff, Instant, Uuid]
    omega

instance : IsTrans ConsumptionQueueItem fun a b => a.before b = true where
  trans a b c hab hbc := by
    simp only [before_iff, Instant, Uuid] at hab hbc ⊢
    omega

theorem id_eq_of_before {a b : ConsumptionQueueItem} (hab : a.before b = true) (hba : b.before a = true) : a.id = b.id := by
  simp only [before_iff, Instant, Uuid] at hab hba ⊢
  omega

end ConsumptionQueueItem

namespace Lectern

variable {s t : Lectern} {w : MediaView} {v viewerId : Uuid}

theorem pairwise_sortedRows (s : Lectern) (v : Uuid) : (s.sortedRows v).Pairwise fun a b => a.before b = true :=
  List.pairwise_insertionSort _ _

theorem mem_sortedRows {q : ConsumptionQueueItem} : q ∈ s.sortedRows v ↔ q ∈ s.rowsOf v := (perm_sortedRows s v).mem_iff

theorem nodup_sortedIds (s : Lectern) (v : Uuid) : ((s.sortedRows v).map ConsumptionQueueItem.id).Nodup :=
  ((perm_sortedRows s v).map _).nodup_iff.2 (nodup_ids s v)

theorem eq_of_id {a b : ConsumptionQueueItem} (ha : a ∈ s.rowsOf v) (hb : b ∈ s.rowsOf v) (h : a.id = b.id) : a = b :=
  Table.eq_of_key (t := s.items) (mem_rowsOf.1 ha).1 (mem_rowsOf.1 hb).1 h

theorem eq_of_ids : ∀ {l l' : List ConsumptionQueueItem}, (∀ q ∈ l, q ∈ s.rowsOf v) → (∀ q ∈ l', q ∈ s.rowsOf v) →
    l.map ConsumptionQueueItem.id = l'.map ConsumptionQueueItem.id → l = l'
  | [], [], _, _, _ => rfl
  | [], _ :: _, _, _, h => by cases h
  | _ :: _, [], _, _, h => by cases h
  | a :: l, b :: l', hl, hl', h => by
    rw [List.map_cons, List.map_cons, List.cons.injEq] at h
    rw [eq_of_id (hl a (by simp)) (hl' b (by simp)) h.1,
      eq_of_ids (fun q hq => hl q (by simp [hq])) (fun q hq => hl' q (by simp [hq])) h.2]

theorem sortedRows_eq {l : List ConsumptionQueueItem} (hp : l.Perm (s.rowsOf v))
    (hl : l.Pairwise fun a b => a.before b = true) : s.sortedRows v = l := by
  refine ((perm_sortedRows s v).trans hp.symm).eq_of_pairwise (fun a b ha hb hab hba => ?_) (pairwise_sortedRows s v) hl
  exact eq_of_id (mem_sortedRows.1 ha) (hp.mem_iff.1 hb) (ConsumptionQueueItem.id_eq_of_before hab hba)

theorem exists_perm_map {α β : Type} {f : α → β} {keys : List β} {l : List α} (h : keys.Perm (l.map f)) :
    ∃ l' : List α, l'.Perm l ∧ l'.map f = keys := by
  have hkeys : List.Forall₂ (fun k a => k = f a) (l.map f) l :=
    List.forall₂_map_left_iff.2 (List.forall₂_same.2 fun _ _ => rfl)
  obtain ⟨l', hl', hperm⟩ : ∃ l', List.Forall₂ (fun k a => k = f a) keys l' ∧ l'.Perm l := List.perm_comp_forall₂ h hkeys
  refine ⟨l', hperm, ?_⟩
  clear h hkeys hperm
  induction hl' with
  | nil => rfl
  | cons hk _ ih => rw [List.map_cons, ih, hk]

theorem sortedRows_of_numbered {ids : List Uuid} (hp : ids.Perm ((s.rowsOf v).map ConsumptionQueueItem.id))
    (ht : t.rowsOf v = (s.rowsOf v).map fun q => { q with position := ids.idxOf q.id }) :
    ∃ rows : List ConsumptionQueueItem, rows.Perm (s.rowsOf v) ∧ rows.map ConsumptionQueueItem.id = ids ∧
      t.sortedRows v = rows.mapIdx fun i q => { q with position := i } := by
  have hnd : ids.Nodup := hp.nodup_iff.2 (nodup_ids s v)
  obtain ⟨rows, hrows, hids⟩ := exists_perm_map hp
  refine ⟨rows, hrows, hids, ?_⟩
  have hnumber : (rows.map fun q => { q with position := ids.idxOf q.id }) = rows.mapIdx fun i q => { q with position := i } := by
    refine List.ext_getElem (by simp) fun i h₁ h₂ => ?_
    have hi : i < rows.length := by simpa using h₁
    have hlt : i < ids.length := by
      rw [← hids]
      simpa using hi
    have hid : rows[i].id = ids[i] := by simp [← hids]
    simp [hid, hnd.idxOf_getElem]
  rw [← hnumber]
  refine sortedRows_eq ?_ ?_
  · rw [ht]
    exact hrows.map _
  · rw [hnumber, List.pairwise_iff_getElem]
    intro i j hi hj hij
    rw [ConsumptionQueueItem.before_iff]
    left
    simpa using hij

/-! ## Appending -/

/-- The requested media that are not on the viewer's Lectern, each once, in the
requested order. -/
def missing (s : Lectern) (viewerId : Uuid) (mediaIds : List Uuid) : List Uuid :=
  mediaIds.eraseDups.filter fun m => !((s.rowsOf viewerId).map ConsumptionQueueItem.mediaId).contains m

theorem dedupe_eq : ∀ (seen mediaIds : List Uuid), dedupe seen mediaIds = (mediaIds.filter fun m => !seen.contains m).eraseDups
  | _, [] => rfl
  | seen, m :: ms => by
    unfold dedupe
    by_cases hm : seen.contains m = true
    · rw [if_pos hm, dedupe_eq seen ms, List.filter_cons_of_neg (by simpa using hm)]
    · rw [if_neg hm, dedupe_eq (m :: seen) ms, List.filter_cons_of_pos (by simpa using hm), List.eraseDups_cons,
        List.filter_filter]
      congr 2
      refine List.filter_congr fun a _ => ?_
      by_cases ha : a = m
      · simp [ha]
      · simp [ha]

theorem missing_eq (s : Lectern) (w : MediaView) (viewerId : Uuid) (mediaIds : List Uuid) :
    ((dedupe [] mediaIds).filter fun m => !((s.loadOrderRows w viewerId).map OrderRow.mediaId).contains m) =
      s.missing viewerId mediaIds := by
  have hmedia : ∀ m, m ∈ (s.loadOrderRows w viewerId).map OrderRow.mediaId ↔
      m ∈ (s.rowsOf viewerId).map ConsumptionQueueItem.mediaId := by
    intro m
    rw [loadOrderRows, List.map_map]
    exact ((perm_sortedRows s viewerId).map _).mem_iff
  have hall : (mediaIds.filter fun m => !([] : List Uuid).contains m) = mediaIds := List.filter_eq_self.2 (by simp)
  rw [dedupe_eq, missing, hall]
  refine List.filter_congr fun m _ => ?_
  rw [Bool.eq_iff_iff]
  simp only [Bool.not_eq_true', List.contains_eq_mem, decide_eq_false_iff_not, hmedia]

/-- The requested media go behind the viewer's rows, which stay as they are. -/
def AppendsMissing (s t : Lectern) (viewerId : Uuid) (mediaIds : List Uuid) : Prop :=
  ∃ new : List ConsumptionQueueItem, t.sortedRows viewerId = s.sortedRows viewerId ++ new ∧
    new.map ConsumptionQueueItem.mediaId = s.missing viewerId mediaIds

/-- No row stands behind the first row an append would insert. -/
def Fits (s : Lectern) (w : MediaView) (viewerId : Uuid) (mediaIds : List Uuid) : Prop :=
  ∀ m ∈ (s.missing viewerId mediaIds).head?, ∀ q ∈ s.rowsOf viewerId,
    q.position < (s.rowsOf viewerId).length ∨ (q.position = (s.rowsOf viewerId).length ∧
      (q.addedAt < w.now ∨ (q.addedAt = w.now ∧ q.id ≤ w.newItemId m)))

instance (s : Lectern) (w : MediaView) (viewerId : Uuid) (mediaIds : List Uuid) : Decidable (s.Fits w viewerId mediaIds) :=
  inferInstanceAs (Decidable (∀ m ∈ _, ∀ q ∈ _, _))

theorem insertRows_new {source} : ∀ {ms : List Uuid} {s : Lectern} {base : Nat} {r},
    s.insertRows w viewerId source base ms = .ok r →
    ∀ q ∈ r.1.items.rows, q ∈ s.items.rows ∨ (q.addedAt = w.now ∧ q.id = w.newItemId q.mediaId)
  | [], s, base, r, h, q, hq => by
    obtain rfl := Except.ok.inj h
    exact .inl hq
  | m :: ms, s, base, r, h, q, hq => by
    unfold insertRows at h
    cases hrow : s.insertRow w viewerId m base source with
    | error e => rw [hrow] at h; cases h
    | ok r₁ =>
      rw [hrow] at h
      simp only at h
      cases hrest : r₁.1.insertRows w viewerId source (base + 1) ms with
      | error e => rw [hrest] at h; cases h
      | ok r₂ =>
        rw [hrest] at h
        obtain rfl := Except.ok.inj h
        have hid : r₁.2 = w.newItemId m := by
          unfold insertRow at hrow
          simp only at hrow
          split at hrow
          · cases hrow
          · split at hrow
            · cases hrow
            · rw [← Except.ok.inj hrow]
        rcases insertRows_new hrest q hq with hq | hq
        · rw [insertRow_ok hrow] at hq
          rcases List.mem_cons.1 hq with rfl | hq
          · exact .inr ⟨rfl, hid⟩
          · exact .inl hq
        · exact .inr hq

theorem ensureMissing_ok {mediaIds source r} (h : s.ensureMissingInTxn w viewerId mediaIds source = .ok r) :
    ∃ new : List ConsumptionQueueItem, r.1.rowsOf viewerId = new.reverse ++ s.rowsOf viewerId ∧
      new.map ConsumptionQueueItem.mediaId = s.missing viewerId mediaIds ∧
      new.map ConsumptionQueueItem.position = List.range' (s.rowsOf viewerId).length new.length ∧
      ∀ q ∈ new, q.addedAt = w.now ∧ q.id = w.newItemId q.mediaId := by
  unfold ensureMissingInTxn at h
  simp only [missing_eq] at h
  split at h
  · cases h
  · split at h
    · rename_i hnone
      obtain rfl := Except.ok.inj h
      exact ⟨[], rfl, (List.isEmpty_iff.1 hnone).symm, rfl, by simp⟩
    · split at h
      · cases h
      · rw [length_loadOrderRows] at h
        obtain ⟨new, hnew⟩ := insertRows_ok h
        refine ⟨new, hnew.rowsOf_self, hnew.media, ?_, fun q hq => ?_⟩
        · rw [hnew.positions, ← hnew.media, List.length_map]
        · have hmem : q ∈ r.1.items.rows := by
            rw [hnew.rows]
            exact List.mem_append_left _ (List.mem_reverse.2 hq)
          refine (insertRows_new h q hmem).resolve_left fun hold => ?_
          have hids := r.1.items.nodup
          rw [hnew.rows, List.map_append, List.nodup_append] at hids
          exact hids.2.2 q.id (List.mem_map_of_mem (List.mem_reverse.2 hq)) q.id (List.mem_map_of_mem hold) rfl

/-- **An append keeps its viewer's list as a prefix exactly when no row stands
behind the first row it inserts.** -/
theorem appendsMissing_iff {mediaIds source r} (h : s.ensureMissingInTxn w viewerId mediaIds source = .ok r) :
    AppendsMissing s r.1 viewerId mediaIds ↔ s.Fits w viewerId mediaIds := by
  obtain ⟨new, hrows, hmedia, hpos, hnew⟩ := ensureMissing_ok h
  have hperm : (s.sortedRows viewerId ++ new).Perm (r.1.rowsOf viewerId) := by
    rw [hrows]
    exact ((perm_sortedRows s viewerId).append_right new).trans
      (List.perm_append_comm.trans ((List.reverse_perm new).symm.append_right _))
  have hnewSorted : new.Pairwise fun a b => a.before b = true := by
    rw [List.pairwise_iff_getElem]
    intro i j hi hj hij
    have hget : ∀ k (hk : k < new.length), new[k].position = (s.rowsOf viewerId).length + k := by
      intro k hk
      have heq := congrArg (fun l => l[k]?) hpos
      simpa [hk] using heq
    rw [ConsumptionQueueItem.before_iff, hget i hi, hget j hj]
    left
    omega
  have hfits : s.Fits w viewerId mediaIds ↔ ∀ a ∈ s.sortedRows viewerId, ∀ b ∈ new, a.before b = true := by
    rw [Fits, ← hmedia]
    cases new with
    | nil => simp
    | cons b new =>
      obtain ⟨hat, hid⟩ := hnew b (by simp)
      have hfirst : b.position = (s.rowsOf viewerId).length := by
        rw [List.map_cons, List.length_cons, List.range'_succ, List.cons.injEq] at hpos
        exact hpos.1
      constructor
      · intro hf a ha c hc
        have hab : a.before b = true := by
          rw [ConsumptionQueueItem.before_iff, hfirst, hat, hid]
          exact hf b.mediaId rfl a (mem_sortedRows.1 ha)
        rcases List.mem_cons.1 hc with rfl | hc
        · exact hab
        · exact IsTrans.trans (r := fun a b : ConsumptionQueueItem => a.before b = true) a b c hab
            (List.rel_of_pairwise_cons hnewSorted hc)
      · intro hall m hm a ha
        have hab := hall a (mem_sortedRows.2 ha) b (by simp)
        rw [ConsumptionQueueItem.before_iff, hfirst, hat, hid] at hab
        obtain rfl : b.mediaId = m := by simpa using hm
        exact hab
  rw [hfits]
  constructor
  · rintro ⟨new', hsorted, hmedia'⟩ a ha b hb
    have hp := pairwise_sortedRows r.1 viewerId
    rw [hsorted, List.pairwise_append] at hp
    refine hp.2.2 a ha b ?_
    -- the list behind the old one holds the inserted rows
    have hb' : b ∈ s.sortedRows viewerId ++ new' := by
      rw [← hsorted, mem_sortedRows]
      exact hperm.mem_iff.1 (List.mem_append_right _ hb)
    refine (List.mem_append.1 hb').resolve_left fun hold => ?_
    have hb₀ : b.mediaId ∈ s.missing viewerId mediaIds := by
      rw [← hmedia]
      exact List.mem_map_of_mem hb
    have hnot := (List.mem_filter.1 hb₀).2
    simp only [Bool.not_eq_true', List.contains_eq_mem, decide_eq_false_iff_not] at hnot
    exact hnot (List.mem_map_of_mem (mem_sortedRows.1 hold))
  · intro hall
    refine ⟨new, sortedRows_eq hperm ?_, hmedia⟩
    exact List.pairwise_append.2 ⟨pairwise_sortedRows s viewerId, hnewSorted, hall⟩

theorem fits_of_dense (hd : s.DenseFor viewerId) (mediaIds : List Uuid) : s.Fits w viewerId mediaIds := by
  intro m _ q hq
  have hlt := hd.1.mem_iff.1 (List.mem_map_of_mem hq)
  rw [List.length_map] at hlt
  exact .inl hlt

end Lectern

/-! ## Appending in runs -/

/-- What `ensure_missing` is to do; a call that raises writes nothing. -/
def LecternOp.Ensures (s : Lectern) (t : Lectern) : LecternOp → Prop
  | .ensureMissing viewerId w mediaIds source =>
    match s.ensureMissingInTxn w viewerId mediaIds source with
    | .error _ => t = s
    | .ok _ => Lectern.AppendsMissing s t viewerId mediaIds
  | _ => True

/-- The condition on an `ensure_missing`. -/
def LecternOp.Fits (s : Lectern) : LecternOp → Prop
  | .ensureMissing viewerId w mediaIds source =>
    match s.ensureMissingInTxn w viewerId mediaIds source with
    | .error _ => True
    | .ok _ => s.Fits w viewerId mediaIds
  | _ => True

open Lectern

theorem ensures_iff {s t : Lectern} {op : LecternOp} (h : Lectern.next s op = .some t) : op.Ensures s t ↔ op.Fits s := by
  cases op with
  | ensureMissing viewerId w mediaIds source =>
    obtain rfl := Option.some.inj h
    simp only [LecternOp.Ensures, LecternOp.Fits, Lectern.after]
    cases hcall : s.ensureMissingInTxn w viewerId mediaIds source with
    | error e => exact iff_of_true rfl trivial
    | ok r => exact appendsMissing_iff hcall
  | command | removeItem | removeItemIfPresent | deleteAllUsers => exact Iff.rfl

/-- **Along every run the calls of `ensure_missing` append exactly when no row
stands behind the first they insert, and they do when each deletion for all users
takes only rows that are their viewer's last.** -/
theorem ensure_missing_appends {s : Lectern} {tr} (h0 : lecternSystem.init s) (hr : lecternSystem.Run s tr) :
    (Along (fun s op t => op.Ensures s t) s tr ↔ Along (fun s op _ => op.Fits s) s tr) ∧
      (Along (fun s op _ => op.NoGap s) s tr → Along (fun s op t => op.Ensures s t) s tr) := by
  refine ⟨Along.iff_of (hr.mono fun s op t hstep => ensures_iff hstep), fun hgap => ?_⟩
  obtain rfl : s = .empty := h0
  refine System.Run.along_of_guarded (I := fun s => ∀ v, s.DenseFor v) (G := fun s op => op.NoGap s)
    (fun s op t hstep hd hG => ⟨?_, (ensures_iff hstep).2 ?_⟩) hr Lectern.denseFor_empty hgap
  · obtain rfl := Option.some.inj hstep
    exact (denseFor_after hd).2 hG
  · cases op with
    | ensureMissing viewerId w mediaIds source =>
      simp only [LecternOp.Fits]
      split
      · trivial
      · exact fits_of_dense (hd viewerId) mediaIds
    | command | removeItem | removeItemIfPresent | deleteAllUsers => trivial

theorem ensure_missing_appends_lastDeleted : (replay Lectern.next .empty lastDeleted).length = 3 ∧
    Along (fun s op t => op.Ensures s t) .empty (replay Lectern.next .empty lastDeleted) :=
  ⟨by decide, (ensure_missing_appends rfl System.run_replay).2 (by decide)⟩

instance {s : Lectern} (op : LecternOp) : Decidable (op.Fits s) := by
  unfold LecternOp.Fits
  split
  · split
    · infer_instance
    · infer_instance
  · infer_instance

/-- Four media, the two in the middle deleted, a fifth added. -/
def twoDeleted : List LecternOp :=
  [.command 1 openView (.placeItems [10, 11, 12, 13] .last), .deleteAllUsers 11, .deleteAllUsers 12,
    .ensureMissing 1 openView [14] .assistant]

/-- The rows left are at `0` and `3`, and the new one goes to `2`. -/
theorem ensure_missing_interleaves :
    ¬ ∀ s tr, lecternSystem.init s → lecternSystem.Run s tr → Along (fun s op t => op.Ensures s t) s tr := by
  intro h
  have hall := h .empty (replay Lectern.next .empty twoDeleted) rfl System.run_replay
  have hfits := (ensure_missing_appends rfl System.run_replay).1.1 hall
  exact absurd hfits (by decide)

/-! ## Placing a block -/

namespace Lectern

variable {s : Lectern} {w : MediaView} {viewerId : Uuid}

/-- `visible` of a row: readable, and not under teardown. -/
def shows (w : MediaView) (q : ConsumptionQueueItem) : Bool := w.visible q.mediaId && !w.tearingDown q.mediaId

/-- Where a placement cuts the rows that stay: before the first visible one,
behind the last visible one, or behind the anchor. -/
def Boundary (w : MediaView) (front back : List ConsumptionQueueItem) : Placement → Prop
  | .first => (∀ q ∈ front, shows w q = false) ∧
      ((∀ q ∈ back, shows w q = false) ∧ front = [] ∨ ∃ q rest, back = q :: rest ∧ shows w q = true)
  | .last => (∀ q ∈ back, shows w q = false) ∧
      ((∀ q ∈ front, shows w q = false) ∧ back = [] ∨ ∃ rest q, front = rest ++ [q] ∧ shows w q = true)
  | .after anchorId => ∃ rest q, front = rest ++ [q] ∧ q.id = anchorId

/-- **A placement as an operation on the list**: the rows outside the block stay
in their order, cut at the boundary, and the block stands between, in its own
order, existing rows under their ids. Positions are numbered afresh. -/
def Placed (s t : Lectern) (w : MediaView) (viewerId : Uuid) (block : List Uuid) (placement : Placement) : Prop :=
  ∃ front moved back : List ConsumptionQueueItem,
    front ++ back = (s.sortedRows viewerId).filter (fun q => !block.contains q.mediaId) ∧
      Boundary w front back placement ∧
      moved.map ConsumptionQueueItem.mediaId = block ∧
      (∀ q ∈ moved, q ∈ s.rowsOf viewerId ∨ q.mediaId ∉ (s.rowsOf viewerId).map ConsumptionQueueItem.mediaId) ∧
      t.sortedRows viewerId = (front ++ moved ++ back).mapIdx (fun i q => { q with position := i }) ∧
      ∀ v, v ≠ viewerId → t.rowsOf v = s.rowsOf v

/-- An anchor that is unknown, in the block, or hidden. -/
def AnchorRefused (s : Lectern) (w : MediaView) (viewerId : Uuid) (block : List Uuid) : Placement → Prop
  | .first | .last => False
  | .after anchorId => ∀ q ∈ s.rowsOf viewerId, q.id = anchorId → q.mediaId ∈ block ∨ shows w q = false

def orderRow (w : MediaView) (q : ConsumptionQueueItem) : OrderRow := ⟨q.id, q.mediaId, q.position, shows w q⟩

theorem loadOrderRows_eq (s : Lectern) (w : MediaView) (viewerId : Uuid) :
    s.loadOrderRows w viewerId = (s.sortedRows viewerId).map (orderRow w) := rfl

theorem checkAnchor_error {block placement} (h : AnchorRefused s w viewerId block placement) :
    ∃ e, checkAnchor (s.loadOrderRows w viewerId) block placement = .error (.api e) := by
  cases placement with
  | first => exact h.elim
  | last => exact h.elim
  | after anchorId =>
    simp only [checkAnchor, loadOrderRows_eq, List.find?_map]
    cases hfound : (s.sortedRows viewerId).find? ((fun r => r.itemId == anchorId) ∘ orderRow w) with
    | none => exact ⟨_, rfl⟩
    | some q =>
      have hq : q ∈ s.rowsOf viewerId := mem_sortedRows.1 (List.mem_of_find?_eq_some hfound)
      have hid : q.id = anchorId := by simpa [orderRow] using List.find?_some hfound
      simp only [Option.map_some]
      by_cases hblock : block.contains (orderRow w q).mediaId = true
      · rw [if_pos hblock]
        exact ⟨_, rfl⟩
      · rw [if_neg hblock]
        have hhidden : (orderRow w q).visible = false := by
          rcases h q hq hid with hin | hhid
          · exact absurd (by simpa [orderRow] using hin) hblock
          · exact hhid
        rw [hhidden]
        exact ⟨_, rfl⟩

theorem boundary_insertIndex {rows : List ConsumptionQueueItem} {placement}
    (hanchor : ∀ anchorId, placement = .after anchorId → ∃ q ∈ rows, q.id = anchorId) :
    Boundary w (rows.take (insertIndex (rows.map (orderRow w)) placement))
      (rows.drop (insertIndex (rows.map (orderRow w)) placement)) placement := by
  cases placement with
  | first =>
    simp only [insertIndex, List.findIdx?_map]
    cases hfound : rows.findIdx? (OrderRow.visible ∘ orderRow w) with
    | none =>
      refine ⟨by simp, .inl ⟨fun q hq => ?_, rfl⟩⟩
      exact List.findIdx?_eq_none_iff.1 hfound q (by simpa using hq)
    | some k =>
      obtain ⟨hk, hshow, hbefore⟩ := List.findIdx?_eq_some_iff_getElem.1 hfound
      simp only [Option.getD_some]
      refine ⟨fun q hq => ?_, .inr ⟨rows[k], rows.drop (k + 1), List.drop_eq_getElem_cons hk, hshow⟩⟩
      obtain ⟨j, hj, rfl⟩ := List.mem_take_iff_getElem.1 hq
      exact Bool.eq_false_iff.2 (hbefore j (lt_of_lt_of_le hj (Nat.min_le_left _ _)))
  | last =>
    simp only [insertIndex, ← List.map_reverse, List.findIdx?_map, List.length_map]
    cases hfound : rows.reverse.findIdx? (OrderRow.visible ∘ orderRow w) with
    | none =>
      simp only [List.take_length, List.drop_length]
      refine ⟨by simp, .inl ⟨fun q hq => ?_, rfl⟩⟩
      exact List.findIdx?_eq_none_iff.1 hfound q (List.mem_reverse.2 hq)
    | some k =>
      obtain ⟨hk, hshow, hbefore⟩ := List.findIdx?_eq_some_iff_getElem.1 hfound
      have hfront : rows.take (rows.length - k) = (rows.reverse.drop k).reverse := by
        rw [List.drop_reverse, List.reverse_reverse]
      have hback : rows.drop (rows.length - k) = (rows.reverse.take k).reverse := by
        rw [List.take_reverse, List.reverse_reverse]
      refine ⟨fun q hq => ?_, .inr ⟨(rows.reverse.drop (k + 1)).reverse, rows.reverse[k], ?_, hshow⟩⟩
      · simp only [hback, List.mem_reverse] at hq
        obtain ⟨j, hj, rfl⟩ := List.mem_take_iff_getElem.1 hq
        exact Bool.eq_false_iff.2 (hbefore j (lt_of_lt_of_le hj (Nat.min_le_left _ _)))
      · simp only [hfront]
        rw [List.drop_eq_getElem_cons hk, List.reverse_cons]
  | after anchorId =>
    obtain ⟨q, hq, hid⟩ := hanchor anchorId rfl
    have hlt : rows.findIdx (fun r => (orderRow w r).itemId == anchorId) < rows.length :=
      List.findIdx_lt_length_of_exists ⟨q, hq, by simpa [orderRow] using hid⟩
    simp only [insertIndex, List.findIdx_map]
    refine ⟨rows.take (rows.findIdx fun r => (orderRow w r).itemId == anchorId),
      rows[rows.findIdx fun r => (orderRow w r).itemId == anchorId], ?_, ?_⟩
    · exact List.take_succ_eq_append_getElem hlt
    · have hget := List.findIdx_getElem (w := hlt)
      simpa [orderRow] using hget

theorem rowsOf_applyDenseOrder {ids : List Uuid} (hp : ids.Perm ((s.rowsOf viewerId).map ConsumptionQueueItem.id)) :
    (s.applyDenseOrder viewerId ids).rowsOf viewerId =
      (s.rowsOf viewerId).map fun q => { q with position := ids.idxOf q.id } := by
  unfold applyDenseOrder
  split
  · rename_i he
    rw [List.isEmpty_iff.1 he] at hp
    rw [List.map_eq_nil_iff.1 hp.nil_eq.symm]
    rfl
  · rw [rowsOf_setPositions]
    refine List.map_congr_left fun q hq => ?_
    have hin : ids.contains q.id = true := by simpa using hp.mem_iff.2 (List.mem_map_of_mem hq)
    rw [hin, (mem_rowsOf.1 hq).2, beq_self_eq_true]
    rfl

theorem ItemsOf.media {dict : List (Uuid × Uuid)} (h : ItemsOf dict s viewerId) : ∀ {media : List Uuid}
    {moved : List ConsumptionQueueItem}, (∀ m ∈ media, ∃ q ∈ s.rowsOf viewerId, q.mediaId = m) →
    (∀ q ∈ moved, q ∈ s.rowsOf viewerId) →
    moved.map ConsumptionQueueItem.id = media.filterMap (fun m => dict.lookup m) → moved.map ConsumptionQueueItem.mediaId = media
  | [], moved, _, _, hids => by
    rw [List.map_eq_nil_iff.1 hids]
    rfl
  | m :: media, moved, hmedia, hmoved, hids => by
    obtain ⟨q, hq, hqm⟩ := hmedia m (by simp)
    have hlookup : dict.lookup m = .some q.id := (h m q.id).2 ⟨q, hq, hqm, rfl⟩
    rw [List.filterMap_cons_some (f := fun m => dict.lookup m) hlookup] at hids
    cases moved with
    | nil => cases hids
    | cons a moved =>
      rw [List.map_cons, List.cons.injEq] at hids
      rw [List.map_cons, eq_of_id (hmoved a (by simp)) hq hids.1, hqm,
        ItemsOf.media h (fun m' hm' => hmedia m' (by simp [hm'])) (fun q' hq' => hmoved q' (by simp [hq'])) hids.2]

theorem lookup_loaded {m : Uuid} :
    ((((s.loadOrderRows w viewerId).map fun r => (r.mediaId, r.itemId)).lookup m).isNone = true) ↔
      m ∉ (s.rowsOf viewerId).map ConsumptionQueueItem.mediaId := by
  have hpairs : ((s.loadOrderRows w viewerId).map fun r => (r.mediaId, r.itemId)) =
      (s.sortedRows viewerId).map fun q => (q.mediaId, q.id) := by
    rw [loadOrderRows_eq, List.map_map]
    rfl
  have hmem : m ∈ (s.rowsOf viewerId).map ConsumptionQueueItem.mediaId ↔
      m ∈ ((s.sortedRows viewerId).map fun q => (q.mediaId, q.id)).map Prod.fst := by
    rw [List.map_map]
    exact ((perm_sortedRows s viewerId).map _).mem_iff.symm
  rw [hpairs, hmem, Option.isNone_iff_eq_none, List.lookup_eq_none_iff]
  constructor
  · rintro h hm
    obtain ⟨pair, hpair, rfl⟩ := List.mem_map.1 hm
    simpa using h pair hpair
  · intro h pair hpair
    have hne : m ≠ pair.1 := by
      rintro rfl
      exact h (List.mem_map_of_mem hpair)
    simpa using hne

theorem checkAnchor_ok {rows : List OrderRow} {block anchorId} (h : checkAnchor rows block (.after anchorId) = .ok ()) :
    ∃ r ∈ rows, r.itemId = anchorId ∧ r.mediaId ∉ block := by
  simp only [checkAnchor] at h
  split at h
  · cases h
  · rename_i anchor hfound
    split at h
    · cases h
    · rename_i hnot
      refine ⟨anchor, List.mem_of_find?_eq_some hfound, by simpa using List.find?_some hfound, ?_⟩
      simpa using hnot

theorem placed_of_ok {mediaIds placement source r} (hnd : mediaIds.Nodup)
    (h : s.placeItemsInTxn w viewerId mediaIds placement source = .ok r) : Placed s r.1 w viewerId mediaIds placement := by
  have hrenumbers := renumbers_placeItems hnd h
  unfold placeItemsInTxn at h
  simp only at h
  split at h
  · cases h
  · cases hanchor : checkAnchor (s.loadOrderRows w viewerId) mediaIds placement with
    | error e => rw [hanchor] at h; cases h
    | ok _ =>
      rw [hanchor] at h
      simp only at h
      have hnewMedia : ∀ m, m ∈ (mediaIds.filter fun m =>
          (((s.loadOrderRows w viewerId).map fun r => (r.mediaId, r.itemId)).lookup m).isNone) ↔
            m ∈ mediaIds ∧ m ∉ (s.rowsOf viewerId).map ConsumptionQueueItem.mediaId := by
        intro m
        rw [List.mem_filter, lookup_loaded]
      generalize (mediaIds.filter fun m =>
        (((s.loadOrderRows w viewerId).map fun r => (r.mediaId, r.itemId)).lookup m).isNone) = newMedia at h hnewMedia
      cases hins : s.insertRows w viewerId source (s.loadOrderRows w viewerId).length newMedia with
      | error e => rw [hins] at h; cases h
      | ok r₁ =>
        rw [hins] at h
        obtain rfl := Except.ok.inj h
        rw [length_loadOrderRows] at hins
        obtain ⟨new, hnew⟩ := insertRows_ok hins
        have hitem := itemsOf_placed (w := w) hnew
        generalize ((s.loadOrderRows w viewerId).map (fun r => (r.mediaId, r.itemId)) ++ r₁.2) = dict at hitem hrenumbers ⊢
        have hold : ∀ q ∈ s.rowsOf viewerId, q ∈ r₁.1.rowsOf viewerId := by
          intro q hq
          rw [hnew.rowsOf_self]
          exact List.mem_append_right _ hq
        -- the rows outside the block
        have hremaining : ((s.loadOrderRows w viewerId).filter fun r =>
            !(mediaIds.filterMap fun m => dict.lookup m).contains r.itemId) =
            ((s.sortedRows viewerId).filter fun q => !mediaIds.contains q.mediaId).map (orderRow w) := by
          rw [loadOrderRows_eq, List.filter_map]
          congr 1
          refine List.filter_congr fun q hq => ?_
          refine congrArg _ (Bool.eq_iff_iff.2 ?_)
          rw [List.contains_iff_mem, List.contains_iff_mem]
          refine hitem.mem_block.trans ⟨?_, fun hm => ⟨q, hold q (mem_sortedRows.1 hq), hm, rfl⟩⟩
          rintro ⟨q', hq', hm, hid⟩
          rw [← eq_of_id hq' (hold q (mem_sortedRows.1 hq)) hid]
          exact hm
        generalize hk : insertIndex ((s.loadOrderRows w viewerId).filter fun r =>
            !(mediaIds.filterMap fun m => dict.lookup m).contains r.itemId) placement = k at hrenumbers ⊢
        have hperm := perm_placed (w := w) hnd (fun m hm => ((hnewMedia m).1 hm).1) hnew hitem k
        rw [List.filter_map, show (((fun i => !(mediaIds.filterMap fun m => dict.lookup m).contains i) ∘ OrderRow.itemId)) =
          (fun r : OrderRow => !(mediaIds.filterMap fun m => dict.lookup m).contains r.itemId) from rfl] at hperm
        rw [hremaining] at hk hperm hrenumbers ⊢
        obtain ⟨rows, hrows, hids, hsorted⟩ := sortedRows_of_numbered hperm (rowsOf_applyDenseOrder hperm)
        obtain ⟨frontMoved, back, rfl, hfrontMoved, hback⟩ := List.map_eq_append_iff.1 hids
        obtain ⟨front, moved, rfl, hfront, hmoved⟩ := List.map_eq_append_iff.1 hfrontMoved
        have hmem : ∀ q ∈ front ++ moved ++ back, q ∈ r₁.1.rowsOf viewerId := fun q hq => hrows.mem_iff.1 hq
        have hrest : ∀ q ∈ (s.sortedRows viewerId).filter (fun q => !mediaIds.contains q.mediaId), q ∈ r₁.1.rowsOf viewerId :=
          fun q hq => hold q (mem_sortedRows.1 (List.mem_filter.1 hq).1)
        have hfrontEq : front = ((s.sortedRows viewerId).filter fun q => !mediaIds.contains q.mediaId).take k := by
          refine eq_of_ids (fun q hq => hmem q (by simp [hq])) (fun q hq => hrest q (List.mem_of_mem_take hq)) ?_
          rw [hfront, List.map_map, ← List.map_take]
          rfl
        have hbackEq : back = ((s.sortedRows viewerId).filter fun q => !mediaIds.contains q.mediaId).drop k := by
          refine eq_of_ids (fun q hq => hmem q (by simp [hq])) (fun q hq => hrest q (List.mem_of_mem_drop hq)) ?_
          rw [hback, List.map_map, ← List.map_drop]
          rfl
        refine ⟨front, moved, back, ?_, ?_, ?_, fun q hq => ?_, hsorted, hrenumbers.others⟩
        · rw [hfrontEq, hbackEq, List.take_append_drop]
        · rw [hfrontEq, hbackEq, ← hk]
          refine boundary_insertIndex fun anchorId hafter => ?_
          subst hafter
          obtain ⟨r, hr, hid, hnot⟩ := checkAnchor_ok hanchor
          rw [loadOrderRows_eq] at hr
          obtain ⟨q, hq, rfl⟩ := List.mem_map.1 hr
          exact ⟨q, List.mem_filter.2 ⟨hq, by simpa [orderRow] using hnot⟩, hid⟩
        · refine hitem.media (fun m hm => ?_) (fun q hq => hmem q (by simp [hq])) hmoved
          by_cases hin : m ∈ (s.rowsOf viewerId).map ConsumptionQueueItem.mediaId
          · obtain ⟨q, hq, hqm⟩ := List.mem_map.1 hin
            exact ⟨q, hold q hq, hqm⟩
          · have hnm : m ∈ newMedia := (hnewMedia m).2 ⟨hm, hin⟩
            rw [← hnew.media] at hnm
            obtain ⟨q, hq, hqm⟩ := List.mem_map.1 hnm
            refine ⟨q, ?_, hqm⟩
            rw [hnew.rowsOf_self]
            exact List.mem_append_left _ (List.mem_reverse.2 hq)
        · have hq' := hmem q (by simp [hq])
          rw [hnew.rowsOf_self] at hq'
          rcases List.mem_append.1 hq' with hq' | hq'
          · refine .inr ((hnewMedia q.mediaId).1 ?_).2
            rw [← hnew.media]
            exact List.mem_map_of_mem (List.mem_reverse.1 hq')
          · exact .inl hq'

/-- **A placement refines the move of a block in the viewer's list**, whatever
the positions were and whoever sees what; one whose anchor is unknown, hidden or
in the block is refused, and what is refused leaves the table as it was. -/
theorem place_items_moves (s : Lectern) (w : MediaView) (viewerId : Uuid) (mediaIds : List Uuid) (placement : Placement)
    (source : LecternSource) :
    (∀ r, s.placeItemsInTxn w viewerId (dedupe [] mediaIds) placement source = .ok r →
      Placed s r.1 w viewerId (dedupe [] mediaIds) placement) ∧
    (AnchorRefused s w viewerId (dedupe [] mediaIds) placement →
      ∃ e, s.placeItemsInTxn w viewerId (dedupe [] mediaIds) placement source = .error e) ∧
    ∀ e, s.placeItemsInTxn w viewerId (dedupe [] mediaIds) placement source = .error e →
      s.committed (s.placeItemsInTxn w viewerId (dedupe [] mediaIds) placement source) = s := by
  refine ⟨fun r h => placed_of_ok (nodup_dedupe _ _) h, fun href => ?_, fun e h => ?_⟩
  · obtain ⟨e, he⟩ := checkAnchor_error href
    unfold placeItemsInTxn
    simp only
    split
    · exact ⟨_, rfl⟩
    · rw [he]
      exact ⟨_, rfl⟩
  · rw [h]
    rfl

/-! ## Setting the order -/

/-- The rows in turn on the places of the visible ones, each on the position it
finds there; hidden rows stay. -/
def weave (w : MediaView) : List ConsumptionQueueItem → List ConsumptionQueueItem → List ConsumptionQueueItem
  | [], _ => []
  | q :: qs, requested =>
    if shows w q then
      match requested with
      | [] => weave w qs []
      | r :: rs => { r with position := q.position } :: weave w qs rs
    else q :: weave w qs requested

def rowsById (s : Lectern) (viewerId : Uuid) (itemIds : List Uuid) : List ConsumptionQueueItem :=
  itemIds.filterMap fun i => (s.rowsOf viewerId).find? (·.id == i)

/-- The visible ids in the viewer's order. -/
def visibleIds (s : Lectern) (w : MediaView) (viewerId : Uuid) : List Uuid :=
  ((s.sortedRows viewerId).filter (shows w)).map ConsumptionQueueItem.id

/-- The visible rows stand in the requested order, and each hidden row where it stood. -/
def InOrder (w : MediaView) (itemIds : List Uuid) (old new : List ConsumptionQueueItem) : Prop :=
  (new.filter (shows w)).map ConsumptionQueueItem.id = itemIds ∧ new.length = old.length ∧
    ∀ (i : Nat) q, old[i]? = .some q → shows w q = false → (new[i]?).map ConsumptionQueueItem.id = .some q.id

/-- Where two rows are to stand on one position, the request has them by time and id. -/
def Orderly (s : Lectern) (w : MediaView) (viewerId : Uuid) (itemIds : List Uuid) : Prop :=
  (weave w (s.sortedRows viewerId) (s.rowsById viewerId itemIds)).Pairwise fun a b =>
    a.position = b.position → a.addedAt < b.addedAt ∨ (a.addedAt = b.addedAt ∧ a.id ≤ b.id)

instance (s : Lectern) (w : MediaView) (viewerId : Uuid) (itemIds : List Uuid) : Decidable (s.Orderly w viewerId itemIds) :=
  inferInstanceAs (Decidable (List.Pairwise _ _))

section Weave

variable {rows requested : List ConsumptionQueueItem}

theorem shows_at (q : ConsumptionQueueItem) (n : Nat) : shows w { q with position := n } = shows w q := rfl

theorem weave_hidden {q : ConsumptionQueueItem} (h : shows w q = false) : weave w (q :: rows) requested = q :: weave w rows requested := by
  rw [weave.eq_def]
  simp only [h, Bool.false_eq_true, if_false]

theorem weave_visible {q r : ConsumptionQueueItem} (h : shows w q = true) :
    weave w (q :: rows) (r :: requested) = { r with position := q.position } :: weave w rows requested := by
  rw [weave, h]
  rfl

theorem weave_spec : ∀ {rows requested : List ConsumptionQueueItem}, (rows.filter (shows w)).length = requested.length →
    (∀ r ∈ requested, shows w r = true) →
    (weave w rows requested).map ConsumptionQueueItem.position = rows.map ConsumptionQueueItem.position ∧
      ((weave w rows requested).filter (shows w)).map ConsumptionQueueItem.id = requested.map ConsumptionQueueItem.id ∧
      (∀ (i : Nat) q, rows[i]? = .some q → shows w q = false → (weave w rows requested)[i]? = .some q) ∧
      (∀ x ∈ weave w rows requested, (x ∈ rows ∧ shows w x = false) ∨ ∃ pair ∈ requested.zip ((rows.filter (shows w)).map
        ConsumptionQueueItem.position), x = { pair.1 with position := pair.2 }) ∧
      ((weave w rows requested).map ConsumptionQueueItem.id).Perm
        ((rows.filter fun q => !shows w q).map ConsumptionQueueItem.id ++ requested.map ConsumptionQueueItem.id)
  | [], requested, hlen, _ => by
    obtain rfl : requested = [] := List.length_eq_zero_iff.1 hlen.symm
    exact ⟨rfl, rfl, by simp, by simp [weave], .refl _⟩
  | q :: rows, requested, hlen, hshow => by
    cases hq : shows w q with
    | false =>
      rw [List.filter_cons_of_neg (by simp [hq])] at hlen
      obtain ⟨hl, hvis, hhid, hmem, hperm⟩ := weave_spec hlen hshow
      rw [weave_hidden hq]
      refine ⟨by rw [List.map_cons, hl, List.map_cons], ?_, ?_, ?_, ?_⟩
      · rw [List.filter_cons_of_neg (by simp [hq])]
        exact hvis
      · intro i x hx hxh
        cases i with
        | zero => exact hx
        | succ i => exact hhid i x hx hxh
      · intro x hx
        rw [List.filter_cons_of_neg (by simp [hq])]
        rcases List.mem_cons.1 hx with rfl | hx
        · exact .inl ⟨List.mem_cons_self, hq⟩
        · rcases hmem x hx with ⟨hx, hxh⟩ | h
          · exact .inl ⟨List.mem_cons_of_mem _ hx, hxh⟩
          · exact .inr h
      · rw [List.filter_cons_of_pos (by simp [hq])]
        exact hperm.cons q.id
    | true =>
      rw [List.filter_cons_of_pos hq] at hlen
      cases requested with
      | nil => cases hlen
      | cons r requested =>
        obtain ⟨hl, hvis, hhid, hmem, hperm⟩ := weave_spec (Nat.succ.inj hlen) fun x hx => hshow x (List.mem_cons_of_mem _ hx)
        have hr : shows w { r with position := q.position } = true := hshow r List.mem_cons_self
        rw [weave_visible hq]
        refine ⟨by rw [List.map_cons, hl, List.map_cons], ?_, ?_, ?_, ?_⟩
        · rw [List.filter_cons_of_pos hr, List.map_cons, hvis, List.map_cons]
        · intro i x hx hxh
          cases i with
          | zero =>
            obtain rfl : q = x := Option.some.inj hx
            rw [hq] at hxh
            cases hxh
          | succ i => exact hhid i x hx hxh
        · intro x hx
          rw [List.filter_cons_of_pos hq, List.map_cons, List.zip_cons_cons]
          rcases List.mem_cons.1 hx with rfl | hx
          · exact .inr ⟨(r, q.position), List.mem_cons_self, rfl⟩
          · rcases hmem x hx with ⟨hx, hxh⟩ | ⟨pair, hpair, h⟩
            · exact .inl ⟨List.mem_cons_of_mem _ hx, hxh⟩
            · exact .inr ⟨pair, List.mem_cons_of_mem _ hpair, h⟩
        · rw [List.filter_cons_of_neg (by simp [hq]), List.map_cons, List.map_cons]
          exact (hperm.cons r.id).trans List.perm_middle.symm

theorem ids_determined : ∀ {old a b : List ConsumptionQueueItem}, a.length = old.length → b.length = old.length →
    (∀ (i : Nat) q, old[i]? = .some q → shows w q = false →
      (a[i]?).map ConsumptionQueueItem.id = .some q.id ∧ (b[i]?).map ConsumptionQueueItem.id = .some q.id) →
    (∀ (i : Nat) q x, old[i]? = .some q → shows w q = true → (a[i]? = .some x ∨ b[i]? = .some x) → shows w x = true) →
    (∀ (i : Nat) q x, old[i]? = .some q → shows w q = false → (a[i]? = .some x ∨ b[i]? = .some x) → shows w x = false) →
    (a.filter (shows w)).map ConsumptionQueueItem.id = (b.filter (shows w)).map ConsumptionQueueItem.id →
    a.map ConsumptionQueueItem.id = b.map ConsumptionQueueItem.id
  | [], a, b, ha, hb, _, _, _, _ => by
    rw [List.length_eq_zero_iff.1 ha, List.length_eq_zero_iff.1 hb]
  | q :: old, a, b, ha, hb, hhid, hvis, hnot, hfilter => by
    cases a with
    | nil => cases ha
    | cons x a =>
      cases b with
      | nil => cases hb
      | cons y b =>
        have hrest := ids_determined (show a.length = old.length from Nat.succ.inj ha)
          (show b.length = old.length from Nat.succ.inj hb)
          (fun i r hr hrh => hhid (i + 1) r hr hrh) (fun i r z hr hrh hz => hvis (i + 1) r z hr hrh hz)
          (fun i r z hr hrh hz => hnot (i + 1) r z hr hrh hz)
        cases hq : shows w q with
        | false =>
          obtain ⟨hx, hy⟩ := hhid 0 q rfl hq
          have hxs := hnot 0 q x rfl hq (.inl rfl)
          have hys := hnot 0 q y rfl hq (.inr rfl)
          rw [List.filter_cons_of_neg (by simp [hxs]), List.filter_cons_of_neg (by simp [hys])] at hfilter
          rw [List.map_cons, List.map_cons, hrest hfilter, (Option.some.inj hx).trans (Option.some.inj hy).symm]
        | true =>
          have hxs := hvis 0 q x rfl hq (.inl rfl)
          have hys := hvis 0 q y rfl hq (.inr rfl)
          rw [List.filter_cons_of_pos hxs, List.filter_cons_of_pos hys, List.map_cons, List.map_cons, List.cons.injEq] at hfilter
          rw [List.map_cons, List.map_cons, hrest hfilter.2, hfilter.1]

end Weave

/-! ### The statements -/

/-- The row under the slots: the position of its pair, if it has one. -/
def slotted (slots : List (Nat × Uuid)) (q : ConsumptionQueueItem) : ConsumptionQueueItem :=
  ((slots.find? fun p => p.2 == q.id).map fun p => { q with position := p.1 }).getD q

theorem rowsOf_assignSlots : ∀ {slots : List (Nat × Uuid)} {s : Lectern}, (slots.map Prod.snd).Nodup →
    (s.assignSlots viewerId slots).rowsOf viewerId = (s.rowsOf viewerId).map (slotted slots)
  | [], s, _ => by
    refine (List.map_id _).symm.trans (List.map_congr_left fun q _ => rfl)
  | (slot, itemId) :: rest, s, hnd => by
    rw [List.map_cons] at hnd
    obtain ⟨hnot, hnd⟩ := List.nodup_cons.1 hnd
    unfold assignSlots
    rw [rowsOf_assignSlots hnd, rowsOf_setPositions, List.map_map]
    refine List.map_congr_left fun q hq => ?_
    have hu : (q.userId == viewerId) = true := by simpa using (mem_rowsOf.1 hq).2
    simp only [Function.comp_apply, hu, Bool.and_true]
    by_cases hid : q.id = itemId
    · have hnone : rest.find? (fun p => p.2 == itemId) = .none := by
        refine List.find?_eq_none.2 fun p hp hpid => hnot ?_
        exact List.mem_map.2 ⟨p, hp, beq_iff_eq.1 hpid⟩
      simp [slotted, hid, hnone]
    · have hne : ¬ itemId = q.id := fun h => hid h.symm
      simp [slotted, hid, hne]

theorem sortedRows_normalize (s : Lectern) (v : Uuid) :
    (s.normalizePositions v).sortedRows v = (s.sortedRows v).mapIdx fun i q => { q with position := i } := by
  have hp : ((s.sortedRows v).map ConsumptionQueueItem.id).Perm ((s.rowsOf v).map ConsumptionQueueItem.id) :=
    (perm_sortedRows s v).map _
  have ht : (s.normalizePositions v).rowsOf v =
      (s.rowsOf v).map fun q => { q with position := ((s.sortedRows v).map ConsumptionQueueItem.id).idxOf q.id } := by
    unfold normalizePositions
    rw [rowsOf_setPositions]
    refine List.map_congr_left fun q hq => ?_
    have hu : (q.userId == v) = true := by simpa using (mem_rowsOf.1 hq).2
    simp only [hu, Bool.true_and]
    split
    · rfl
    · rename_i hsame
      simp only [bne_iff_ne, ne_eq, not_not] at hsame
      rw [← hsame]
  obtain ⟨rows, hrows, hids, hsorted⟩ := sortedRows_of_numbered hp ht
  rw [hsorted, eq_of_ids (fun q hq => hrows.mem_iff.1 hq) (fun q hq => mem_sortedRows.1 hq) hids]

theorem inOrder_numbered {w : MediaView} {itemIds : List Uuid} {old new : List ConsumptionQueueItem} :
    InOrder w itemIds old (new.mapIdx fun i q => { q with position := i }) ↔ InOrder w itemIds old new := by
  have hfilter : ((new.mapIdx fun i q => ({ q with position := i } : ConsumptionQueueItem)).filter (shows w)).map
      ConsumptionQueueItem.id = (new.filter (shows w)).map ConsumptionQueueItem.id := by
    induction new using List.reverseRecOn with
    | nil => rfl
    | append_singleton l q ih =>
      rw [List.mapIdx_append, List.filter_append, List.map_append, ih, List.filter_append, List.map_append]
      congr 1
      cases hq : shows w q <;> simp [hq, shows_at]
  simp only [InOrder, hfilter, List.length_mapIdx, List.getElem?_mapIdx, Option.map_map]
  rfl

theorem rowsById_spec {itemIds : List Uuid} (h : ∀ i ∈ itemIds, i ∈ (s.rowsOf viewerId).map ConsumptionQueueItem.id) :
    (s.rowsById viewerId itemIds).map ConsumptionQueueItem.id = itemIds ∧
      ∀ r ∈ s.rowsById viewerId itemIds, r ∈ s.rowsOf viewerId ∧ r.id ∈ itemIds := by
  induction itemIds with
  | nil => exact ⟨rfl, by simp [rowsById]⟩
  | cons i itemIds ih =>
    obtain ⟨hids, hmem⟩ := ih fun j hj => h j (List.mem_cons_of_mem _ hj)
    obtain ⟨q, hq, hqi⟩ := List.mem_map.1 (h i List.mem_cons_self)
    cases hfound : (s.rowsOf viewerId).find? (·.id == i) with
    | none => exact absurd (beq_iff_eq.2 hqi) (List.find?_eq_none.1 hfound q hq)
    | some r =>
      have hrid : r.id = i := by simpa using List.find?_some hfound
      have hcons : s.rowsById viewerId (i :: itemIds) = r :: s.rowsById viewerId itemIds := by
        rw [rowsById, List.filterMap_cons_some (f := fun i => (s.rowsOf viewerId).find? (·.id == i)) hfound]
        rfl
      rw [hcons]
      refine ⟨by rw [List.map_cons, hids, hrid], fun x hx => ?_⟩
      rcases List.mem_cons.1 hx with rfl | hx
      · exact ⟨List.mem_of_find?_eq_some hfound, by rw [hrid]; exact List.mem_cons_self⟩
      · exact ⟨(hmem x hx).1, List.mem_cons_of_mem _ (hmem x hx).2⟩

theorem accepts_iff {itemIds : List Uuid} :
    (!decide itemIds.Nodup || !itemIds.all (s.visibleIds w viewerId).contains || !(s.visibleIds w viewerId).all itemIds.contains)
      = false ↔ itemIds.Perm (s.visibleIds w viewerId) := by
  have hnd : (s.visibleIds w viewerId).Nodup := (nodup_sortedIds s viewerId).sublist (List.filter_sublist.map _)
  simp only [Bool.or_eq_false_iff, Bool.not_eq_false', decide_eq_true_eq, List.all_eq_true, List.contains_iff_mem]
  constructor
  · rintro ⟨⟨hreq, hsub⟩, hsup⟩
    exact (List.perm_ext_iff_of_nodup hreq hnd).2 fun i => ⟨hsub i, hsup i⟩
  · intro hp
    exact ⟨⟨hp.nodup_iff.2 hnd, fun i hi => hp.mem_iff.1 hi⟩, fun i hi => hp.mem_iff.2 hi⟩

/-- Two orders of the same rows that both keep the hidden ones in place and show
the requested ids are one order. -/
theorem eq_of_inOrder {t : Lectern} {itemIds : List Uuid} {a b : List ConsumptionQueueItem} (ha : a.Perm (t.rowsOf viewerId))
    (hb : b.Perm (t.rowsOf viewerId))
    (hshows : ∀ x ∈ t.rowsOf viewerId, ∃ q ∈ s.sortedRows viewerId, q.id = x.id ∧ shows w q = shows w x)
    (hA : InOrder w itemIds (s.sortedRows viewerId) a) (hB : InOrder w itemIds (s.sortedRows viewerId) b) : a = b := by
  -- a row of either order is seen as the old row of its id
  have hsame : ∀ x q, x ∈ t.rowsOf viewerId → q ∈ s.sortedRows viewerId → x.id = q.id → shows w x = shows w q := by
    intro x q hx hq hid
    obtain ⟨q', hq', hid', hs⟩ := hshows x hx
    rw [← hs, eq_of_id (mem_sortedRows.1 hq') (mem_sortedRows.1 hq) (hid'.trans hid)]
  have hhidden : ∀ {l : List ConsumptionQueueItem}, l.Perm (t.rowsOf viewerId) → InOrder w itemIds (s.sortedRows viewerId) l →
      ∀ (i : Nat) q x, (s.sortedRows viewerId)[i]? = .some q → shows w q = false → l[i]? = .some x → shows w x = false := by
    intro l hl hL i q x hq hqh hx
    have hid := hL.2.2 i q hq hqh
    rw [hx] at hid
    rw [hsame x q (hl.mem_iff.1 (List.mem_of_getElem? hx)) (List.mem_of_getElem? hq) (Option.some.inj hid)]
    exact hqh
  have hvisible : ∀ {l : List ConsumptionQueueItem}, l.Perm (t.rowsOf viewerId) → InOrder w itemIds (s.sortedRows viewerId) l →
      ∀ (i : Nat) q x, (s.sortedRows viewerId)[i]? = .some q → shows w q = true → l[i]? = .some x → shows w x = true := by
    intro l hl hL i q x hq hqs hx
    by_contra hxh
    -- a hidden row stands where it stood, and that place is its own
    obtain ⟨q', hq', hid', hs⟩ := hshows x (hl.mem_iff.1 (List.mem_of_getElem? hx))
    obtain ⟨j, hj⟩ := List.getElem?_of_mem hq'
    have hlj := hL.2.2 j q' hj (by simpa [hs] using hxh)
    have hlnd : (l.map ConsumptionQueueItem.id).Nodup := (hl.map _).nodup_iff.2 (nodup_ids t viewerId)
    have hi : i < l.length := (List.getElem?_eq_some_iff.1 hx).1
    have hij : i = j := by
      refine (List.getElem?_inj (by simpa using hi) hlnd).1 ?_
      rw [List.getElem?_map, List.getElem?_map, hlj, hx, hid']
      rfl
    subst hij
    rw [hq] at hj
    rw [Option.some.inj hj, hs] at hqs
    exact hxh hqs
  refine eq_of_ids (fun q hq => ha.mem_iff.1 hq) (fun q hq => hb.mem_iff.1 hq) ?_
  refine ids_determined (w := w) hA.2.1 hB.2.1 (fun i q hq hh => ⟨hA.2.2 i q hq hh, hB.2.2 i q hq hh⟩)
    (fun i q x hq hv => Or.rec (hvisible ha hA i q x hq hv) (hvisible hb hB i q x hq hv))
    (fun i q x hq hv => Or.rec (hhidden ha hA i q x hq hv) (hhidden hb hB i q x hq hv)) (hA.1.trans hB.1.symm)

theorem visibleRows_eq (s : Lectern) (w : MediaView) (viewerId : Uuid) :
    (s.loadOrderRows w viewerId).filter OrderRow.visible = ((s.sortedRows viewerId).filter (shows w)).map (orderRow w) := by
  rw [loadOrderRows_eq, List.filter_map]
  rfl

theorem slots_eq (s : Lectern) (w : MediaView) (viewerId : Uuid) :
    (((s.loadOrderRows w viewerId).filter OrderRow.visible).map OrderRow.position).insertionSort (· ≤ ·) =
      ((s.sortedRows viewerId).filter (shows w)).map ConsumptionQueueItem.position := by
  rw [visibleRows_eq, List.map_map]
  refine List.Pairwise.insertionSort_eq (List.pairwise_map.2 ?_)
  refine ((pairwise_sortedRows s viewerId).sublist List.filter_sublist).imp fun {a b} hab => ?_
  rcases ConsumptionQueueItem.before_iff.1 hab with hlt | ⟨heq, _⟩
  · exact Nat.le_of_lt hlt
  · exact Nat.le_of_eq heq

theorem requested_rows {itemIds : List Uuid} (h : itemIds.Perm (s.visibleIds w viewerId)) :
    (s.rowsById viewerId itemIds).map ConsumptionQueueItem.id = itemIds ∧
      (∀ r ∈ s.rowsById viewerId itemIds, r ∈ s.rowsOf viewerId ∧ shows w r = true) ∧
      ((s.sortedRows viewerId).filter (shows w)).length = (s.rowsById viewerId itemIds).length := by
  have hvisible : ∀ i ∈ itemIds, ∃ q ∈ s.rowsOf viewerId, shows w q = true ∧ q.id = i := by
    intro i hi
    obtain ⟨q, hq, hid⟩ := List.mem_map.1 (h.mem_iff.1 hi)
    exact ⟨q, mem_sortedRows.1 (List.mem_filter.1 hq).1, (List.mem_filter.1 hq).2, hid⟩
  have hall : ∀ i ∈ itemIds, i ∈ (s.rowsOf viewerId).map ConsumptionQueueItem.id := by
    intro i hi
    obtain ⟨q, hq, _, hid⟩ := hvisible i hi
    exact List.mem_map.2 ⟨q, hq, hid⟩
  obtain ⟨hids, hrows⟩ := rowsById_spec hall
  refine ⟨hids, fun r hr => ⟨(hrows r hr).1, ?_⟩, ?_⟩
  · obtain ⟨q, hq, hqs, hid⟩ := hvisible r.id (hrows r hr).2
    rw [← eq_of_id hq (hrows r hr).1 hid]
    exact hqs
  · have hlen : ((s.rowsById viewerId itemIds).map ConsumptionQueueItem.id).length = (s.rowsById viewerId itemIds).length :=
      List.length_map _
    rw [← hlen, hids, h.length_eq, visibleIds,
      List.length_map]

theorem id_slotted (slots : List (Nat × Uuid)) (q : ConsumptionQueueItem) : (slotted slots q).id = q.id := by
  unfold slotted
  cases slots.find? fun p => p.2 == q.id <;> rfl

theorem shows_slotted (slots : List (Nat × Uuid)) (q : ConsumptionQueueItem) : shows w (slotted slots q) = shows w q := by
  unfold slotted
  cases slots.find? fun p => p.2 == q.id <;> rfl

theorem slotted_of_mem {slots : List (Nat × Uuid)} (hnd : (slots.map Prod.snd).Nodup) {q : ConsumptionQueueItem} {slot : Nat}
    (h : (slot, q.id) ∈ slots) : slotted slots q = { q with position := slot } := by
  cases hfound : slots.find? fun p => p.2 == q.id with
  | none => exact absurd (beq_iff_eq.2 rfl) (List.find?_eq_none.1 hfound _ h)
  | some p =>
    have hsnd : p.2 = q.id := by simpa using List.find?_some hfound
    obtain rfl : p = (slot, q.id) := List.inj_on_of_nodup_map hnd (List.mem_of_find?_eq_some hfound) h hsnd
    simp [slotted, hfound]

theorem slotted_of_notMem {slots : List (Nat × Uuid)} {q : ConsumptionQueueItem} (h : q.id ∉ slots.map Prod.snd) :
    slotted slots q = q := by
  have hnone : slots.find? (fun p => p.2 == q.id) = .none :=
    List.find?_eq_none.2 fun p hp hpid => h (List.mem_map.2 ⟨p, hp, beq_iff_eq.1 hpid⟩)
  simp [slotted, hnone]

/-- The pairs of slot and id a call assigns. -/
def slotPairs (s : Lectern) (w : MediaView) (viewerId : Uuid) (itemIds : List Uuid) : List (Nat × Uuid) :=
  (((s.sortedRows viewerId).filter (shows w)).map ConsumptionQueueItem.position).zip itemIds

theorem perm_weave {itemIds : List Uuid} (h : itemIds.Perm (s.visibleIds w viewerId)) :
    (weave w (s.sortedRows viewerId) (s.rowsById viewerId itemIds)).Perm
      ((s.assignSlots viewerId (s.slotPairs w viewerId itemIds)).rowsOf viewerId) := by
  obtain ⟨hids, hrows, hlen⟩ := requested_rows h
  obtain ⟨-, -, -, hmem, hperm⟩ := weave_spec hlen fun r hr => (hrows r hr).2
  have hsnd : (s.slotPairs w viewerId itemIds).map Prod.snd = itemIds := by
    refine List.map_snd_zip ?_
    rw [List.length_map, hlen, ← List.length_map (f := ConsumptionQueueItem.id), hids]
  have hnd : ((s.slotPairs w viewerId itemIds).map Prod.snd).Nodup := by
    rw [hsnd]
    exact h.nodup_iff.2 ((nodup_sortedIds s viewerId).sublist (List.filter_sublist.map _))
  rw [rowsOf_assignSlots hnd]
  -- the ids are those of the viewer
  have hidsPerm : ((weave w (s.sortedRows viewerId) (s.rowsById viewerId itemIds)).map ConsumptionQueueItem.id).Perm
      ((s.rowsOf viewerId).map ConsumptionQueueItem.id) := by
    refine hperm.trans ?_
    rw [hids]
    refine (List.Perm.append_left _ h).trans ?_
    rw [visibleIds, ← List.map_append]
    refine List.Perm.map _ ((List.perm_append_comm.trans (List.filter_append_perm (shows w) _)).trans (perm_sortedRows s viewerId))
  have hwnd : (weave w (s.sortedRows viewerId) (s.rowsById viewerId itemIds)).Nodup :=
    List.Nodup.of_map _ (hidsPerm.nodup_iff.2 (nodup_ids s viewerId))
  refine (hwnd.subperm fun x hx => ?_).perm_of_length_le ?_
  · rcases hmem x hx with ⟨hx, hxh⟩ | ⟨pair, hpair, rfl⟩
    · refine List.mem_map.2 ⟨x, mem_sortedRows.1 hx, slotted_of_notMem ?_⟩
      rw [hsnd]
      intro hreq
      obtain ⟨q, hq, hid⟩ := List.mem_map.1 (h.mem_iff.1 hreq)
      obtain ⟨hq, hqs⟩ := List.mem_filter.1 hq
      rw [eq_of_id (mem_sortedRows.1 hq) (mem_sortedRows.1 hx) hid, hxh] at hqs
      cases hqs
    · have hr := List.of_mem_zip hpair
      refine List.mem_map.2 ⟨pair.1, (hrows _ hr.1).1, slotted_of_mem hnd ?_⟩
      have hzip : (s.slotPairs w viewerId itemIds) = ((s.rowsById viewerId itemIds).zip
          (((s.sortedRows viewerId).filter (shows w)).map ConsumptionQueueItem.position)).map fun p => (p.2, p.1.id) := by
        rw [slotPairs]
        conv_lhs => rw [← hids]
        rw [List.zip_map_right, ← List.zip_swap, List.map_map]
        rfl
      rw [hzip]
      exact List.mem_map_of_mem hpair
  · rw [List.length_map, ← List.length_map (f := ConsumptionQueueItem.id), ← hidsPerm.length_eq, List.length_map]

/-- What a request for an order is to do. -/
def SetsOrder (s : Lectern) (w : MediaView) (viewerId : Uuid) (itemIds : List Uuid) : Prop :=
  match s.setOrderInTxn w viewerId itemIds with
  | .ok t => itemIds.Perm (s.visibleIds w viewerId) ∧ InOrder w itemIds (s.sortedRows viewerId) (t.sortedRows viewerId) ∧
      ∀ v, v ≠ viewerId → t.rowsOf v = s.rowsOf v
  | .error _ => ¬ itemIds.Perm (s.visibleIds w viewerId) ∧
      s.committed (s.applyLecternCommand w viewerId (.setOrder itemIds)) = s

theorem setOrder_ok {itemIds : List Uuid} (h : itemIds.Perm (s.visibleIds w viewerId)) : s.setOrderInTxn w viewerId itemIds =
    .ok ((s.assignSlots viewerId (s.slotPairs w viewerId itemIds)).normalizePositions viewerId) := by
  have hids : ((s.loadOrderRows w viewerId).filter OrderRow.visible).map OrderRow.itemId = s.visibleIds w viewerId := by
    rw [visibleRows_eq, List.map_map]
    rfl
  unfold setOrderInTxn
  simp only [hids, slots_eq]
  rw [if_neg (by rw [accepts_iff.2 h]; simp)]
  rfl

theorem setOrder_error {itemIds : List Uuid} (h : ¬ itemIds.Perm (s.visibleIds w viewerId)) :
    ∃ e, s.setOrderInTxn w viewerId itemIds = .error e := by
  have hids : ((s.loadOrderRows w viewerId).filter OrderRow.visible).map OrderRow.itemId = s.visibleIds w viewerId := by
    rw [visibleRows_eq, List.map_map]
    rfl
  unfold setOrderInTxn
  simp only [hids]
  rw [if_pos (by rw [← Bool.not_eq_false, accepts_iff]; exact h)]
  exact ⟨_, rfl⟩

theorem pairwise_weave_iff {itemIds : List Uuid} (h : itemIds.Perm (s.visibleIds w viewerId)) :
    ((weave w (s.sortedRows viewerId) (s.rowsById viewerId itemIds)).Pairwise fun a b => a.before b = true) ↔
      s.Orderly w viewerId itemIds := by
  obtain ⟨_, hrows, hlen⟩ := requested_rows h
  obtain ⟨hpos, -⟩ := weave_spec hlen fun r hr => (hrows r hr).2
  have hle : (weave w (s.sortedRows viewerId) (s.rowsById viewerId itemIds)).Pairwise fun a b => a.position ≤ b.position := by
    refine List.pairwise_map.1 ?_
    rw [hpos]
    refine List.pairwise_map.2 ((pairwise_sortedRows s viewerId).imp fun {a b} hab => ?_)
    rcases ConsumptionQueueItem.before_iff.1 hab with hlt | ⟨heq, _⟩
    · exact Nat.le_of_lt hlt
    · exact Nat.le_of_eq heq
  constructor
  · refine fun hp => hp.imp fun {a b} hab heq => ?_
    rcases ConsumptionQueueItem.before_iff.1 hab with hlt | ⟨_, htie⟩
    · exact absurd heq (Nat.ne_of_lt hlt)
    · exact htie
  · intro ho
    refine (hle.and ho).imp fun {a b} ⟨hle, htie⟩ => ConsumptionQueueItem.before_iff.2 ?_
    rcases Nat.lt_or_eq_of_le hle with hlt | heq
    · exact .inl hlt
    · exact .inr ⟨heq, htie heq⟩

theorem orderly_of_nodup {itemIds : List Uuid} (h : itemIds.Perm (s.visibleIds w viewerId))
    (hnd : ((s.rowsOf viewerId).map ConsumptionQueueItem.position).Nodup) : s.Orderly w viewerId itemIds := by
  obtain ⟨_, hrows, hlen⟩ := requested_rows h
  obtain ⟨hpos, -⟩ := weave_spec hlen fun r hr => (hrows r hr).2
  have hwnd : ((weave w (s.sortedRows viewerId) (s.rowsById viewerId itemIds)).map ConsumptionQueueItem.position).Nodup := by
    rw [hpos]
    exact ((perm_sortedRows s viewerId).map _).nodup_iff.2 hnd
  exact (List.pairwise_map.1 hwnd).imp fun hne heq => absurd heq hne

/-- **A request is accepted exactly when it permutes the visible ids, and then
sets the order it names exactly when it has rows of one position by time and
id**; so it always does where positions differ. What is refused changes nothing. -/
theorem set_order_iff (s : Lectern) (w : MediaView) (viewerId : Uuid) (itemIds : List Uuid) :
    (s.SetsOrder w viewerId itemIds ↔ (itemIds.Perm (s.visibleIds w viewerId) → s.Orderly w viewerId itemIds)) ∧
      (((s.rowsOf viewerId).map ConsumptionQueueItem.position).Nodup → s.SetsOrder w viewerId itemIds) := by
  have hiff : s.SetsOrder w viewerId itemIds ↔ (itemIds.Perm (s.visibleIds w viewerId) → s.Orderly w viewerId itemIds) := by
    by_cases h : itemIds.Perm (s.visibleIds w viewerId)
    · have hothers := (renumbers_setOrder (setOrder_ok h)).others
      obtain ⟨hids, hrows, hlen⟩ := requested_rows h
      obtain ⟨hpos, hfilter, hhidden, -, -⟩ := weave_spec hlen fun r hr => (hrows r hr).2
      have hperm := perm_weave h
      have hweave : InOrder w itemIds (s.sortedRows viewerId) (weave w (s.sortedRows viewerId) (s.rowsById viewerId itemIds)) := by
        refine ⟨hfilter.trans hids, ?_, fun i q hq hqh => by rw [hhidden i q hq hqh]; rfl⟩
        rw [← List.length_map (f := ConsumptionQueueItem.position), hpos, List.length_map]
      simp only [SetsOrder, setOrder_ok h, sortedRows_normalize, inOrder_numbered, h, true_and, forall_const]
      rw [← pairwise_weave_iff h]
      constructor
      · rintro ⟨hin, -⟩
        rw [← eq_of_inOrder (perm_sortedRows _ viewerId) hperm ?_ hin hweave]
        · exact pairwise_sortedRows _ viewerId
        · intro x hx
          have hnd : ((s.slotPairs w viewerId itemIds).map Prod.snd).Nodup := by
            refine (List.map_snd_zip ?_).symm ▸ h.nodup_iff.2 ((nodup_sortedIds s viewerId).sublist (List.filter_sublist.map _))
            rw [List.length_map, hlen, ← List.length_map (f := ConsumptionQueueItem.id), hids]
          rw [rowsOf_assignSlots hnd] at hx
          obtain ⟨q, hq, rfl⟩ := List.mem_map.1 hx
          exact ⟨q, mem_sortedRows.2 hq, (id_slotted _ q).symm, (shows_slotted _ q).symm⟩
      · intro hp
        rw [sortedRows_eq hperm hp]
        exact ⟨hweave, hothers⟩
    · obtain ⟨e, he⟩ := setOrder_error h
      refine iff_of_true ?_ (fun hp => absurd hp h)
      simp only [SetsOrder, he, applyLecternCommand]
      exact ⟨h, rfl⟩
  exact ⟨hiff, fun hnd => hiff.2 fun h => orderly_of_nodup h hnd⟩

/-- The list after `middleDeleted`, with two rows on position `2`. -/
def tied : Lectern := middleDeleted.foldl Lectern.after .empty

/-- The last two rows are not exchanged. -/
theorem tied_not_ordered : ¬ ∀ (s : Lectern) w viewerId itemIds, s.SetsOrder w viewerId itemIds := by
  intro h
  have hno := (set_order_iff tied openView 1 [110, 113, 112]).1.1 (h tied openView 1 [110, 113, 112])
  exact absurd hno (by decide)

end Lectern

end Nexus.Consumption
