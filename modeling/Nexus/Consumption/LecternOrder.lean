/-
The order of a Lectern: which runs keep every viewer's positions dense.

Every call of the store but one ends in `applyDenseOrder` or
`normalizePositions`, or appends at the length, and touches the rows of its
viewer only (`Renumbers`). The deletion of a media for all users renumbers
nothing, so it leaves a gap unless the row it takes is its viewer's last
(`NoGap`); `lectern_dense_iff` says that this is the whole story. Since a call
is one step whoever's it is, a run is any interleaving of viewers' transactions.
-/
import Nexus.Consumption.LecternStore
import Nexus.Lib.Gapless
import Nexus.Lib.Run

namespace Nexus.Consumption
open Relational Transition

/-! ## Lists -/

theorem mem_dedupe {m : Uuid} : ∀ {seen ms : List Uuid}, m ∈ dedupe seen ms → m ∉ seen
  | _, [], h => by cases h
  | seen, a :: ms, h => by
    unfold dedupe at h
    split at h
    · exact mem_dedupe h
    · rename_i ha
      rcases List.mem_cons.1 h with rfl | h
      · simpa using ha
      · intro hm
        exact mem_dedupe h (List.mem_cons_of_mem _ hm)

theorem nodup_dedupe : ∀ (seen ms : List Uuid), (dedupe seen ms).Nodup
  | _, [] => List.nodup_nil
  | seen, a :: ms => by
    unfold dedupe
    split
    · exact nodup_dedupe seen ms
    · exact List.nodup_cons.2 ⟨fun h => mem_dedupe h (by simp), nodup_dedupe (a :: seen) ms⟩

theorem lookup_eq_some_iff_mem {l : List (Uuid × Uuid)} (hnd : (l.map Prod.fst).Nodup) {m i : Uuid} :
    l.lookup m = .some i ↔ (m, i) ∈ l := by
  induction l with
  | nil => simp
  | cons p l ih =>
    obtain ⟨m', i'⟩ := p
    rw [List.map_cons] at hnd
    obtain ⟨hnot, hnd⟩ := List.nodup_cons.1 hnd
    rw [List.lookup_cons, List.mem_cons]
    by_cases hm : m = m'
    · subst hm
      have hno : (m, i) ∉ l := fun h => hnot (List.mem_map.2 ⟨(m, i), h, rfl⟩)
      simp [hno, eq_comm]
    · have hb : (m == m') = false := by simpa using hm
      simp [hb, hm, ih hnd]

namespace Lectern

variable {s s' : Lectern} {w : MediaView} {v u viewerId mediaId itemId : Uuid}

/-- A viewer's positions are `0 … n-1` and no media is listed twice. -/
def DenseFor (s : Lectern) (viewerId : Uuid) : Prop :=
  Gapless ((s.rowsOf viewerId).map ConsumptionQueueItem.position) ∧
    ((s.rowsOf viewerId).map ConsumptionQueueItem.mediaId).Nodup

instance : Decidable (s.DenseFor v) := inferInstanceAs (Decidable (_ ∧ _))

theorem mem_rowsOf {q : ConsumptionQueueItem} : q ∈ s.rowsOf v ↔ q ∈ s.items.rows ∧ q.userId = v := by
  simp [rowsOf, List.mem_filter]

theorem nodup_ids (s : Lectern) (v : Uuid) : ((s.rowsOf v).map ConsumptionQueueItem.id).Nodup :=
  s.items.nodup.sublist (List.filter_sublist.map _)

theorem eq_of_media {a b : ConsumptionQueueItem} (ha : a ∈ s.rowsOf v) (hb : b ∈ s.rowsOf v)
    (h : a.mediaId = b.mediaId) : a = b := by
  have ha' := mem_rowsOf.1 ha
  have hb' := mem_rowsOf.1 hb
  exact Table.eq_of_key (t := s.byMedia) ha'.1 hb'.1 (Prod.ext (ha'.2.trans hb'.2.symm) h)

theorem nodup_media (s : Lectern) (v : Uuid) : ((s.rowsOf v).map ConsumptionQueueItem.mediaId).Nodup :=
  (s.items.rows_nodup.filter _).map_on fun _ ha _ hb h => eq_of_media ha hb h

theorem perm_sortedRows (s : Lectern) (v : Uuid) : (s.sortedRows v).Perm (s.rowsOf v) :=
  List.perm_insertionSort _ _

/-! ## What the statements do to a viewer's rows -/

theorem rowsOf_setPositions (s : Lectern) (p : ConsumptionQueueItem → Bool) (pos : ConsumptionQueueItem → Nat) (v : Uuid) :
    (s.setPositions p pos).rowsOf v = (s.rowsOf v).map fun q => if p q then { q with position := pos q } else q := by
  simp only [rowsOf, setPositions, Table.updateWhere, List.filter_map]
  congr 1
  refine List.filter_congr fun q _ => ?_
  simp only [Function.comp_apply]
  split <;> rfl

theorem rowsOf_setPositions_of_ne {p : ConsumptionQueueItem → Bool} {pos : ConsumptionQueueItem → Nat}
    (hp : ∀ q, p q = true → q.userId = u) (hv : v ≠ u) : (s.setPositions p pos).rowsOf v = s.rowsOf v := by
  rw [rowsOf_setPositions]
  refine (List.map_congr_left fun q hq => ?_).trans (List.map_id _)
  cases hpq : p q with
  | false => rfl
  | true => exact absurd ((mem_rowsOf.1 hq).2.symm.trans (hp q hpq)) hv

theorem positions_setPositions {p : ConsumptionQueueItem → Bool} {pos : ConsumptionQueueItem → Nat}
    (h : ∀ q ∈ s.rowsOf v, p q = false → q.position = pos q) :
    ((s.setPositions p pos).rowsOf v).map ConsumptionQueueItem.position = (s.rowsOf v).map pos := by
  rw [rowsOf_setPositions, List.map_map]
  refine List.map_congr_left fun q hq => ?_
  simp only [Function.comp_apply]
  cases hpq : p q with
  | false => exact h q hq hpq
  | true => rfl

theorem rowsOf_deleteWhere (s : Lectern) (p : ConsumptionQueueItem → Bool) (v : Uuid) :
    (s.deleteWhere p).rowsOf v = (s.rowsOf v).filter fun q => !p q := by
  simp only [rowsOf, deleteWhere, Table.deleteWhere, List.filter_filter, Bool.and_comm]

theorem rows_insert? {q : ConsumptionQueueItem} (h : s.insert? q = .some s') : s'.items.rows = q :: s.items.rows := by
  unfold insert? at h
  split at h
  · cases h
  · obtain rfl := Option.some.inj h
    rfl

theorem insertRow_ok {source} {position : Nat} {pair} (h : s.insertRow w viewerId mediaId position source = .ok pair) :
    pair.1.items.rows = ⟨pair.2, viewerId, mediaId, position, w.now, source⟩ :: s.items.rows := by
  unfold insertRow at h
  simp only at h
  split at h
  · cases h
  · cases hi : s.insert? ⟨w.newItemId mediaId, viewerId, mediaId, position, w.now, source⟩ with
    | none => rw [hi] at h; cases h
    | some s₁ =>
      rw [hi] at h
      obtain rfl := Except.ok.inj h
      exact rows_insert? hi

/-- What a loop of inserts adds: one row of the viewer for each media, at the
positions from `base` on. -/
structure Inserted (s s' : Lectern) (viewerId : Uuid) (base : Nat) (media : List Uuid) (pairs : List (Uuid × Uuid))
    (new : List ConsumptionQueueItem) : Prop where
  rows : s'.items.rows = new.reverse ++ s.items.rows
  user : ∀ q ∈ new, q.userId = viewerId
  positions : new.map ConsumptionQueueItem.position = List.range' base media.length
  media : new.map ConsumptionQueueItem.mediaId = media
  pairs : pairs = new.map fun q => (q.mediaId, q.id)

theorem insertRows_ok {source} : ∀ {ms : List Uuid} {s : Lectern} {base : Nat} {r},
    s.insertRows w viewerId source base ms = .ok r → ∃ new, Inserted s r.1 viewerId base ms r.2 new
  | [], s, base, r, h => by
    obtain rfl := Except.ok.inj h
    exact ⟨[], rfl, by simp, rfl, rfl, rfl⟩
  | m :: ms, s, base, r, h => by
    unfold insertRows at h
    cases hrow : s.insertRow w viewerId m base source with
    | error e => rw [hrow] at h; cases h
    | ok r₁ =>
      rw [hrow] at h
      simp only at h
      cases hrest : r₁.1.insertRows w viewerId source (base + 1) ms with
      | error e => rw [hrest] at h; cases h
      | ok r₂ =>
        rw [hrest] at h
        obtain rfl := Except.ok.inj h
        obtain ⟨new, hnew⟩ := insertRows_ok hrest
        have hr := insertRow_ok hrow
        refine ⟨⟨r₁.2, viewerId, m, base, w.now, source⟩ :: new, ?_, ?_, ?_, ?_, ?_⟩
        · rw [hnew.rows, hr, List.reverse_cons, List.append_assoc, List.singleton_append]
        · intro q hq
          rcases List.mem_cons.1 hq with rfl | hq
          · rfl
          · exact hnew.user q hq
        · rw [List.map_cons, hnew.positions, List.length_cons, List.range'_succ]
        · rw [List.map_cons, hnew.media]
        · rw [List.map_cons, hnew.pairs]

namespace Inserted

variable {base : Nat} {media : List Uuid} {pairs : List (Uuid × Uuid)} {new : List ConsumptionQueueItem}

theorem rowsOf_self (h : Inserted s s' viewerId base media pairs new) :
    s'.rowsOf viewerId = new.reverse ++ s.rowsOf viewerId := by
  have hall : (new.reverse.filter fun q => q.userId == viewerId) = new.reverse :=
    List.filter_eq_self.2 fun q hq => by simpa using h.user q (List.mem_reverse.1 hq)
  unfold rowsOf
  rw [h.rows, List.filter_append, hall]

theorem rowsOf_of_ne (h : Inserted s s' viewerId base media pairs new) (hv : v ≠ viewerId) :
    s'.rowsOf v = s.rowsOf v := by
  have hno : (new.reverse.filter fun q => q.userId == v) = [] := by
    refine List.filter_eq_nil_iff.2 fun q hq hqv => hv ?_
    exact (by simpa using hqv : q.userId = v).symm.trans (h.user q (List.mem_reverse.1 hq))
  unfold rowsOf
  rw [h.rows, List.filter_append, hno, List.nil_append]

theorem dense (h : Inserted s s' viewerId (s.rowsOf viewerId).length media pairs new)
    (hd : Gapless ((s.rowsOf viewerId).map ConsumptionQueueItem.position)) :
    Gapless ((s'.rowsOf viewerId).map ConsumptionQueueItem.position) := by
  have happ := hd.append_range' media.length
  rw [List.length_map, ← h.positions, ← List.map_append] at happ
  rw [h.rowsOf_self]
  refine happ.of_perm (List.Perm.map _ ?_)
  exact List.perm_append_comm.trans ((List.reverse_perm new).symm.append_right _)

end Inserted

/-! ## Renumbering -/

/-- The step touches no other viewer's rows and keeps its viewer's order dense. -/
structure Renumbers (s s' : Lectern) (viewerId : Uuid) : Prop where
  others : ∀ v, v ≠ viewerId → s'.rowsOf v = s.rowsOf v
  dense : s.DenseFor viewerId → s'.DenseFor viewerId

theorem Renumbers.refl (s : Lectern) (viewerId : Uuid) : Renumbers s s viewerId := ⟨fun _ _ => rfl, id⟩

theorem Renumbers.denseFor (h : Renumbers s s' viewerId) (hd : ∀ v, s.DenseFor v) (v : Uuid) : s'.DenseFor v := by
  by_cases hv : v = viewerId
  · subst hv
    exact h.dense (hd v)
  · unfold DenseFor
    rw [h.others v hv]
    exact hd v

theorem denseFor_applyDenseOrder {ids : List Uuid} (hp : ids.Perm ((s.rowsOf viewerId).map ConsumptionQueueItem.id))
    (hnd : ids.Nodup) : (s.applyDenseOrder viewerId ids).DenseFor viewerId := by
  refine ⟨?_, nodup_media _ _⟩
  unfold applyDenseOrder
  split
  · rename_i he
    rw [List.isEmpty_iff.1 he] at hp
    rw [List.map_eq_nil_iff.1 hp.nil_eq.symm]
    exact Gapless.nil
  · rw [positions_setPositions]
    · exact Gapless.idxOf hp hnd
    · intro q hq hskip
      have hin : q.id ∈ ids := hp.mem_iff.2 (List.mem_map_of_mem hq)
      simp [hin, (mem_rowsOf.1 hq).2] at hskip

theorem rowsOf_applyDenseOrder_of_ne {ids : List Uuid} (hv : v ≠ viewerId) :
    (s.applyDenseOrder viewerId ids).rowsOf v = s.rowsOf v := by
  unfold applyDenseOrder
  split
  · rfl
  · refine rowsOf_setPositions_of_ne (fun q hq => ?_) hv
    simp only [Bool.and_eq_true, beq_iff_eq] at hq
    exact hq.2

/-- **Whatever the positions were, normalizing makes them dense.** -/
theorem denseFor_normalizePositions (s : Lectern) (viewerId : Uuid) : (s.normalizePositions viewerId).DenseFor viewerId := by
  refine ⟨?_, nodup_media _ _⟩
  unfold normalizePositions
  have hp : ((s.sortedRows viewerId).map ConsumptionQueueItem.id).Perm
      ((s.rowsOf viewerId).map ConsumptionQueueItem.id) := (perm_sortedRows s viewerId).map _
  rw [positions_setPositions]
  · exact Gapless.idxOf hp (hp.nodup_iff.2 (nodup_ids s viewerId))
  · intro q hq hskip
    have hu : q.userId = viewerId := (mem_rowsOf.1 hq).2
    simpa [hu] using hskip

theorem rowsOf_normalizePositions_of_ne (hv : v ≠ viewerId) :
    (s.normalizePositions viewerId).rowsOf v = s.rowsOf v := by
  refine rowsOf_setPositions_of_ne (fun q hq => ?_) hv
  simp only [Bool.and_eq_true, beq_iff_eq] at hq
  exact hq.1

/-! ## The calls -/

/-- The dict gives each of the viewer's medias the id of its row. -/
def ItemsOf (dict : List (Uuid × Uuid)) (s : Lectern) (viewerId : Uuid) : Prop :=
  ∀ m i, dict.lookup m = .some i ↔ ∃ q ∈ s.rowsOf viewerId, q.mediaId = m ∧ q.id = i

theorem itemsOf_placed {media : List Uuid} {pairs : List (Uuid × Uuid)} {new : List ConsumptionQueueItem}
    (h : Inserted s s' viewerId (s.rowsOf viewerId).length media pairs new) :
    ItemsOf ((s.loadOrderRows w viewerId).map (fun r => (r.mediaId, r.itemId)) ++ pairs) s' viewerId := by
  intro m i
  have hlist : ((s.loadOrderRows w viewerId).map (fun r => (r.mediaId, r.itemId)) ++ pairs).Perm
      ((s'.rowsOf viewerId).map fun q => (q.mediaId, q.id)) := by
    rw [h.pairs, h.rowsOf_self, loadOrderRows, List.map_map, List.map_append]
    have hold := (perm_sortedRows s viewerId).map fun q => (q.mediaId, q.id)
    have hnew := (List.reverse_perm new).symm.map fun q => (q.mediaId, q.id)
    exact (hold.append hnew).trans List.perm_append_comm
  have hkeys : ((s'.rowsOf viewerId).map fun q => (q.mediaId, q.id)).map Prod.fst =
      (s'.rowsOf viewerId).map ConsumptionQueueItem.mediaId := by
    rw [List.map_map]; rfl
  rw [lookup_eq_some_iff_mem ((hlist.map Prod.fst).nodup_iff.2 (by rw [hkeys]; exact nodup_media s' viewerId)),
    hlist.mem_iff, List.mem_map]
  simp only [Prod.mk.injEq]

theorem length_loadOrderRows : (s.loadOrderRows w viewerId).length = (s.rowsOf viewerId).length := by
  rw [loadOrderRows, List.length_map]
  exact (perm_sortedRows s viewerId).length_eq

theorem ids_loadOrderRows : ((s.loadOrderRows w viewerId).map OrderRow.itemId).Perm
    ((s.rowsOf viewerId).map ConsumptionQueueItem.id) := by
  rw [loadOrderRows, List.map_map]
  exact (perm_sortedRows s viewerId).map _

theorem ItemsOf.mem_block {dict : List (Uuid × Uuid)} (h : ItemsOf dict s viewerId) {mediaIds : List Uuid} {i : Uuid} :
    i ∈ mediaIds.filterMap (fun m => dict.lookup m) ↔
      ∃ q ∈ s.rowsOf viewerId, q.mediaId ∈ mediaIds ∧ q.id = i := by
  have hlookup : ∀ m, dict.lookup m = .some i ↔ ∃ q ∈ s.rowsOf viewerId, q.mediaId = m ∧ q.id = i := fun m => h m i
  simp only [List.mem_filterMap, hlookup]
  constructor
  · rintro ⟨m, hm, q, hq, rfl, hi⟩
    exact ⟨q, hq, hm, hi⟩
  · rintro ⟨q, hq, hm, hi⟩
    exact ⟨q.mediaId, hm, q, hq, rfl, hi⟩

theorem ItemsOf.nodup_block {dict : List (Uuid × Uuid)} (h : ItemsOf dict s viewerId) {mediaIds : List Uuid}
    (hnd : mediaIds.Nodup) : (mediaIds.filterMap fun m => dict.lookup m).Nodup :=
  hnd.filterMap fun m m' i hi hi' => by
    obtain ⟨q, hq, rfl, hqi⟩ := (h _ _).1 hi
    obtain ⟨q', hq', rfl, hqi'⟩ := (h _ _).1 hi'
    have hqq : q = q' :=
      Table.eq_of_key (t := s.items) (mem_rowsOf.1 hq).1 (mem_rowsOf.1 hq').1 (hqi.trans hqi'.symm)
    rw [hqq]

/-- The placed block, at any place among the rows that were there and are not
in it, is an order of the viewer's rows. -/
theorem perm_placed {mediaIds newMedia : List Uuid} {pairs new} (hnd : mediaIds.Nodup)
    (hsub : ∀ m ∈ newMedia, m ∈ mediaIds)
    (hnew : Inserted s s' viewerId (s.rowsOf viewerId).length newMedia pairs new) {dict : List (Uuid × Uuid)}
    (hitem : ItemsOf dict s' viewerId) (k : Nat) :
    (((((s.loadOrderRows w viewerId).map OrderRow.itemId).filter fun i =>
        !(mediaIds.filterMap fun m => dict.lookup m).contains i).take k) ++
      (mediaIds.filterMap fun m => dict.lookup m) ++
      ((((s.loadOrderRows w viewerId).map OrderRow.itemId).filter fun i =>
        !(mediaIds.filterMap fun m => dict.lookup m).contains i).drop k)).Perm
      ((s'.rowsOf viewerId).map ConsumptionQueueItem.id) := by
  have hold : ((s.loadOrderRows w viewerId).map OrderRow.itemId).Nodup :=
    ids_loadOrderRows.nodup_iff.2 (nodup_ids s viewerId)
  refine Gapless.perm_moveBlock (nodup_ids s' viewerId) hold (hitem.nodup_block hnd) ?_ ?_ ?_ k
  · intro i hi
    obtain ⟨q, hq, -, rfl⟩ := hitem.mem_block.1 hi
    exact List.mem_map_of_mem hq
  · intro i hi
    obtain ⟨q, hq, rfl⟩ := List.mem_map.1 (ids_loadOrderRows.mem_iff.1 hi)
    rw [hnew.rowsOf_self]
    exact List.mem_map_of_mem (List.mem_append_right _ hq)
  · intro i hi
    obtain ⟨q, hq, rfl⟩ := List.mem_map.1 hi
    have hq' := hq
    rw [hnew.rowsOf_self] at hq'
    rcases List.mem_append.1 hq' with hq' | hq'
    · -- an inserted row is in the block
      have hm : q.mediaId ∈ newMedia := by
        rw [← hnew.media]
        exact List.mem_map_of_mem (List.mem_reverse.1 hq')
      exact .inr (hitem.mem_block.2 ⟨q, hq, hsub _ hm, rfl⟩)
    · exact .inl (ids_loadOrderRows.mem_iff.2 (List.mem_map_of_mem hq'))

theorem renumbers_placeItems {mediaIds placement source r} (hnd : mediaIds.Nodup)
    (h : s.placeItemsInTxn w viewerId mediaIds placement source = .ok r) : Renumbers s r.1 viewerId := by
  unfold placeItemsInTxn at h
  simp only at h
  split at h
  · cases h
  · cases hanchor : checkAnchor (s.loadOrderRows w viewerId) mediaIds placement with
    | error e => rw [hanchor] at h; cases h
    | ok _ =>
      rw [hanchor] at h
      simp only at h
      generalize hnewMedia : (mediaIds.filter fun m =>
        (((s.loadOrderRows w viewerId).map fun r => (r.mediaId, r.itemId)).lookup m).isNone) = newMedia at h
      cases hins : s.insertRows w viewerId source (s.loadOrderRows w viewerId).length newMedia with
      | error e => rw [hins] at h; cases h
      | ok r₁ =>
        rw [hins] at h
        obtain rfl := Except.ok.inj h
        rw [length_loadOrderRows] at hins
        obtain ⟨new, hnew⟩ := insertRows_ok hins
        refine ⟨fun v hv => ?_, fun _ => ?_⟩
        · rw [rowsOf_applyDenseOrder_of_ne hv, hnew.rowsOf_of_ne hv]
        · have hsub : ∀ m ∈ newMedia, m ∈ mediaIds := by
            rw [← hnewMedia]
            exact fun m hm => (List.mem_filter.1 hm).1
          have hitem := itemsOf_placed (w := w) hnew
          generalize ((s.loadOrderRows w viewerId).map (fun r => (r.mediaId, r.itemId)) ++ r₁.2) = dict at hitem ⊢
          have hplaced := perm_placed (w := w) hnd hsub hnew hitem
            (insertIndex ((s.loadOrderRows w viewerId).filter fun r =>
              !(mediaIds.filterMap fun m => dict.lookup m).contains r.itemId) placement)
          rw [List.filter_map] at hplaced
          exact denseFor_applyDenseOrder hplaced (hplaced.nodup_iff.2 (nodup_ids _ _))

theorem renumbers_deleteItem : Renumbers s (s.deleteItem viewerId itemId) viewerId := by
  refine ⟨fun v hv => ?_, fun _ => denseFor_normalizePositions _ _⟩
  unfold deleteItem
  rw [rowsOf_normalizePositions_of_ne hv, rowsOf_deleteWhere]
  refine List.filter_eq_self.2 fun q hq => ?_
  have hne : (q.userId == viewerId) = false := by
    rw [(mem_rowsOf.1 hq).2]
    simpa using hv
  simp [hne]

theorem renumbers_removeItem {r} (h : s.removeItemInTxn viewerId itemId = .ok r) : Renumbers s r.1 viewerId := by
  unfold removeItemInTxn at h
  split at h
  · obtain rfl := Except.ok.inj h
    exact renumbers_deleteItem
  · cases h

theorem renumbers_removeItemIfPresent : Renumbers s (s.removeItemIfPresentInTxn viewerId itemId).1 viewerId := by
  unfold removeItemIfPresentInTxn
  split
  · exact renumbers_deleteItem
  · exact .refl s viewerId

theorem rowsOf_assignSlots_of_ne (hv : v ≠ viewerId) : ∀ {slots : List (Nat × Uuid)} {s : Lectern},
    (s.assignSlots viewerId slots).rowsOf v = s.rowsOf v
  | [], _ => rfl
  | _ :: rest, s => by
    unfold assignSlots
    rw [rowsOf_assignSlots_of_ne hv]
    refine rowsOf_setPositions_of_ne (fun q hq => ?_) hv
    simp only [Bool.and_eq_true, beq_iff_eq] at hq
    exact hq.2

theorem renumbers_setOrder {itemIds s'} (h : s.setOrderInTxn w viewerId itemIds = .ok s') : Renumbers s s' viewerId := by
  unfold setOrderInTxn at h
  simp only at h
  split at h
  · cases h
  · obtain rfl := Except.ok.inj h
    refine ⟨fun v hv => ?_, fun _ => denseFor_normalizePositions _ _⟩
    rw [rowsOf_normalizePositions_of_ne hv, rowsOf_assignSlots_of_ne hv]

theorem renumbers_ensureMissing {mediaIds source r} (h : s.ensureMissingInTxn w viewerId mediaIds source = .ok r) :
    Renumbers s r.1 viewerId := by
  unfold ensureMissingInTxn at h
  simp only at h
  split at h
  · cases h
  · split at h
    · obtain rfl := Except.ok.inj h
      exact .refl s viewerId
    · split at h
      · cases h
      · rw [length_loadOrderRows] at h
        obtain ⟨new, hnew⟩ := insertRows_ok h
        exact ⟨fun v hv => hnew.rowsOf_of_ne hv, fun hd => ⟨hnew.dense hd.1, nodup_media _ _⟩⟩

theorem renumbers_applyLecternCommand {c r} (h : s.applyLecternCommand w viewerId c = .ok r) :
    Renumbers s r.1 viewerId := by
  unfold applyLecternCommand at h
  cases c with
  | placeItems mediaIds placement =>
    simp only at h
    cases hv : validateAddTargets w (dedupe [] mediaIds) with
    | error e => rw [hv] at h; cases h
    | ok _ =>
      rw [hv] at h
      cases hp : s.placeItemsInTxn w viewerId (dedupe [] mediaIds) placement .manual with
      | error e => simp only [hp] at h; cases h
      | ok r₁ =>
        simp only [hp] at h
        obtain rfl := Except.ok.inj h
        exact renumbers_placeItems (nodup_dedupe _ _) hp
  | removeItem itemId =>
    cases hp : s.removeItemInTxn viewerId itemId with
    | error e => simp only [hp] at h; cases h
    | ok r₁ =>
      simp only [hp] at h
      obtain rfl := Except.ok.inj h
      exact renumbers_removeItem hp
  | setOrder itemIds =>
    cases hp : s.setOrderInTxn w viewerId itemIds with
    | error e => simp only [hp] at h; cases h
    | ok s₁ =>
      simp only [hp] at h
      obtain rfl := Except.ok.inj h
      exact renumbers_setOrder hp

/-! ## Runs -/

end Lectern

inductive LecternOp
  /-- `apply_lectern_command` -/
  | command (viewerId : Uuid) (w : MediaView) (c : LecternCommand)
  /-- the removal a consumption command asks for -/
  | removeItem (viewerId itemId : Uuid)
  /-- `remove_lectern_item` -/
  | removeItemIfPresent (viewerId itemId : Uuid)
  /-- `ensure_missing_items` and its siblings -/
  | ensureMissing (viewerId : Uuid) (w : MediaView) (mediaIds : List Uuid) (source : LecternSource)
  /-- `delete_media_consumption_state_in_txn` -/
  | deleteAllUsers (mediaId : Uuid)

namespace Lectern

/-- The state a transaction leaves: a rollback changes nothing. -/
def committed {α : Type} (s : Lectern) : Except Abort (Lectern × α) → Lectern
  | .ok r => r.1
  | .error _ => s

def after (s : Lectern) : LecternOp → Lectern
  | .command viewerId w c => s.committed (s.applyLecternCommand w viewerId c)
  | .removeItem viewerId itemId => s.committed (s.removeItemInTxn viewerId itemId)
  | .removeItemIfPresent viewerId itemId => (s.removeItemIfPresentInTxn viewerId itemId).1
  | .ensureMissing viewerId w mediaIds source => s.committed (s.ensureMissingInTxn w viewerId mediaIds source)
  | .deleteAllUsers mediaId => s.deleteAllUsersInTxn mediaId

def next (s : Lectern) (op : LecternOp) : Option Lectern := .some (s.after op)

end Lectern

def lecternSystem : System Lectern LecternOp := .ofFun (fun s => s = .empty) Lectern.next

/-- A deletion for all users takes only rows that are their viewer's last. -/
def LecternOp.NoGap (s : Lectern) : LecternOp → Prop
  | .deleteAllUsers mediaId => ∀ a ∈ s.items.rows, a.mediaId = mediaId →
      ∀ b ∈ s.items.rows, b.userId = a.userId → b.position ≤ a.position
  | _ => True

instance {s : Lectern} : (op : LecternOp) → Decidable (op.NoGap s)
  | .deleteAllUsers mediaId => inferInstanceAs (Decidable (∀ a ∈ s.items.rows, a.mediaId = mediaId →
      ∀ b ∈ s.items.rows, b.userId = a.userId → b.position ≤ a.position))
  | .command .. | .removeItem .. | .removeItemIfPresent .. | .ensureMissing .. => .isTrue trivial

namespace Lectern

theorem Renumbers.committed {s : Lectern} {viewerId : Uuid} {α : Type} {r : Except Abort (Lectern × α)}
    (h : ∀ r', r = .ok r' → Renumbers s r'.1 viewerId) : Renumbers s (s.committed r) viewerId := by
  cases r with
  | error e => exact .refl s viewerId
  | ok r' => exact h r' rfl

/-- Taking a media off every Lectern leaves all of them dense exactly when it
was the last row of each. -/
theorem denseFor_deleteAllUsers {s : Lectern} {mediaId : Uuid} (hd : ∀ v, s.DenseFor v) :
    (∀ v, (s.deleteAllUsersInTxn mediaId).DenseFor v) ↔ (LecternOp.deleteAllUsers mediaId).NoGap s := by
  have hone : ∀ v, (s.deleteAllUsersInTxn mediaId).DenseFor v ↔
      ∀ a ∈ s.rowsOf v, a.mediaId = mediaId → ∀ b ∈ s.rowsOf v, b.mediaId ≠ mediaId → b.position < a.position := by
    intro v
    have hf := (hd v).1.filter_iff fun q => !(q.mediaId == mediaId)
    unfold DenseFor deleteAllUsersInTxn
    rw [and_iff_left (nodup_media _ v), rowsOf_deleteWhere, hf]
    simp
  constructor
  · intro h a ha ham b hb hbu
    have ha' : a ∈ s.rowsOf a.userId := mem_rowsOf.2 ⟨ha, rfl⟩
    have hb' : b ∈ s.rowsOf a.userId := mem_rowsOf.2 ⟨hb, hbu⟩
    by_cases hbm : b.mediaId = mediaId
    · rw [eq_of_media hb' ha' (hbm.trans ham.symm)]
    · exact Nat.le_of_lt ((hone a.userId).1 (h a.userId) a ha' ham b hb' hbm)
  · intro h v
    refine (hone v).2 fun a ha ham b hb hbm => ?_
    have hle : b.position ≤ a.position := h a (mem_rowsOf.1 ha).1 ham b (mem_rowsOf.1 hb).1
      ((mem_rowsOf.1 hb).2.trans (mem_rowsOf.1 ha).2.symm)
    have hne : b.position ≠ a.position := by
      intro he
      have hab : b = a := List.inj_on_of_nodup_map (hd v).1.nodup hb ha he
      exact hbm (hab ▸ ham)
    omega

theorem denseFor_after {s : Lectern} {op : LecternOp} (hd : ∀ v, s.DenseFor v) :
    (∀ v, (s.after op).DenseFor v) ↔ op.NoGap s := by
  cases op with
  | command viewerId w c =>
    have hr : Renumbers s (s.after (.command viewerId w c)) viewerId :=
      .committed fun _ h => renumbers_applyLecternCommand h
    exact iff_of_true (hr.denseFor hd) trivial
  | removeItem viewerId itemId =>
    have hr : Renumbers s (s.after (.removeItem viewerId itemId)) viewerId :=
      .committed fun _ h => renumbers_removeItem h
    exact iff_of_true (hr.denseFor hd) trivial
  | removeItemIfPresent viewerId itemId => exact iff_of_true (renumbers_removeItemIfPresent.denseFor hd) trivial
  | ensureMissing viewerId w mediaIds source =>
    have hr : Renumbers s (s.after (.ensureMissing viewerId w mediaIds source)) viewerId :=
      .committed fun _ h => renumbers_ensureMissing h
    exact iff_of_true (hr.denseFor hd) trivial
  | deleteAllUsers mediaId => exact denseFor_deleteAllUsers hd

end Lectern

open Lectern

theorem Lectern.denseFor_empty (v : Uuid) : Lectern.empty.DenseFor v := ⟨Gapless.nil, List.nodup_nil⟩

/-- **A run keeps every viewer's order dense exactly when each deletion for all
users takes only rows that are their viewer's last.** -/
theorem lectern_dense_iff {s : Lectern} {tr} (h0 : lecternSystem.init s) (hr : lecternSystem.Run s tr) :
    (∀ x ∈ tr, ∀ v, x.2.DenseFor v) ↔ Along (fun s op _ => op.NoGap s) s tr := by
  obtain rfl : s = .empty := h0
  refine hr.invariant_iff_guarded (I := fun s => ∀ v, s.DenseFor v) (fun s op t hs hd => ?_) Lectern.denseFor_empty
  obtain rfl := Option.some.inj hs
  exact denseFor_after hd

/-- A view in which every media is there and readable; its rows get the ids from
`100` on. -/
def openView : MediaView where
  now := 5
  visible _ := true
  canRead _ := true
  tearingDown _ := false
  kind _ := .some .webArticle
  newItemId m := 100 + m

/-- Three media, the middle one deleted, a fourth added. -/
def middleDeleted : List LecternOp :=
  [.command 1 openView (.placeItems [10, 11, 12] .last), .deleteAllUsers 11, .ensureMissing 1 openView [13] .assistant]

/-- The deletion leaves the positions `0, 2`, and the next append makes `2` a duplicate. -/
theorem lectern_not_dense : ∃ s tr, lecternSystem.init s ∧ lecternSystem.Run s tr ∧
    ¬ ∀ x ∈ tr, ∀ v, x.2.DenseFor v := by
  refine ⟨.empty, replay Lectern.next .empty middleDeleted, rfl, System.run_replay, fun h => ?_⟩
  have hd : ∀ x ∈ replay Lectern.next .empty middleDeleted, x.2.DenseFor 1 := fun x hx => h x hx 1
  revert hd
  decide

/-- The same run with the last media deleted instead. -/
def lastDeleted : List LecternOp :=
  [.command 1 openView (.placeItems [10, 11, 12] .last), .deleteAllUsers 12, .ensureMissing 1 openView [13] .assistant]

theorem lectern_dense_iff_lastDeleted : (replay Lectern.next .empty lastDeleted).length = 3 ∧
    ∀ x ∈ replay Lectern.next .empty lastDeleted, ∀ v, x.2.DenseFor v :=
  ⟨by decide, (lectern_dense_iff rfl System.run_replay).2 (by decide)⟩

end Nexus.Consumption
