/-
`consumption/_lectern_store.py`, the only writer of `consumption_queue_items`,
and the commands of `consumption/service.py` that call it.

A call runs in a transaction that holds the viewer's row lock and either
commits or rolls back, so it is one function here: `.error` leaves the table as
it was. What a call reads of other tables (visibility, teardown intents, media
kinds), its clock and the ids its inserts draw are a `MediaView`. Titles, urls
and subtitles, which only the snapshot shows, are left out.
-/
import Mathlib.Data.List.Sort
import Nexus.Base
import Nexus.Lib.Table

namespace Nexus.Consumption
open Relational

inductive LecternSource
  | manual
  | assistant
  | autoSubscription
  deriving DecidableEq, Repr

/-- A row of `consumption_queue_items`. -/
structure ConsumptionQueueItem where
  id : Uuid
  userId : Uuid
  mediaId : Uuid
  position : Nat
  addedAt : Instant
  source : LecternSource
  deriving DecidableEq, Repr

/-- The columns of `uq_consumption_queue_items_user_media`. -/
abbrev ConsumptionQueueItem.userMedia (q : ConsumptionQueueItem) : Uuid × Uuid := (q.userId, q.mediaId)

/-- `consumption_queue_items`, with both its unique constraints. -/
structure Lectern where
  items : Table ConsumptionQueueItem ConsumptionQueueItem.id
  unique : (items.rows.map ConsumptionQueueItem.userMedia).Nodup

/-- What one call reads of the other tables. -/
structure MediaView where
  now : Instant
  /-- `visible_media_ids_cte_sql` -/
  visible : Uuid → Bool
  /-- `can_read_media(include_tearing_down=True)` -/
  canRead : Uuid → Bool
  /-- has a row in `media_teardown_intents` -/
  tearingDown : Uuid → Bool
  /-- `media.kind`, when there is such a media -/
  kind : Uuid → Option MediaKind
  /-- the `gen_random_uuid()` the insert of a media's row draws -/
  newItemId : Uuid → Uuid

structure OrderRow where
  itemId : Uuid
  mediaId : Uuid
  position : Nat
  visible : Bool
  deriving DecidableEq, Repr

inductive Placement
  | first
  | last
  | after (itemId : Uuid)
  deriving DecidableEq, Repr

inductive LecternCommand
  | placeItems (mediaIds : List Uuid) (placement : Placement)
  | removeItem (itemId : Uuid)
  | setOrder (itemIds : List Uuid)

inductive LecternOutcome
  | placed (itemIds : List Uuid)
  | removed (itemId : Uuid)
  | ordered
  deriving DecidableEq, Repr

def lecternMaxItems : Nat := 2000

/-- `_dedupe`, with the ids seen so far. -/
def dedupe (seen : List Uuid) : List Uuid → List Uuid
  | [] => []
  | m :: ms => if seen.contains m then dedupe seen ms else m :: dedupe (m :: seen) ms

/-- `ORDER BY position ASC, added_at ASC, id ASC` -/
def ConsumptionQueueItem.before (a b : ConsumptionQueueItem) : Bool :=
  decide (a.position < b.position) || (a.position == b.position &&
    (decide (a.addedAt < b.addedAt) || (a.addedAt == b.addedAt && decide (a.id ≤ b.id))))

namespace Lectern

def empty : Lectern := ⟨.empty, by simp⟩

/-- The same rows under the other constraint. -/
def byMedia (s : Lectern) : Table ConsumptionQueueItem ConsumptionQueueItem.userMedia := ⟨s.items.rows, s.unique⟩

def rowsOf (s : Lectern) (viewerId : Uuid) : List ConsumptionQueueItem :=
  s.items.rows.filter fun q => q.userId == viewerId

/-! ## Statements -/

/-- `UPDATE consumption_queue_items SET position = … WHERE p` -/
def setPositions (s : Lectern) (p : ConsumptionQueueItem → Bool) (pos : ConsumptionQueueItem → Nat) : Lectern where
  items := s.items.updateWhere p (fun q => { q with position := pos q }) fun _ => rfl
  unique := (s.byMedia.updateWhere p (fun q => { q with position := pos q }) fun _ => rfl).nodup

/-- `DELETE FROM consumption_queue_items WHERE p` -/
def deleteWhere (s : Lectern) (p : ConsumptionQueueItem → Bool) : Lectern where
  items := s.items.deleteWhere p
  unique := (s.byMedia.deleteWhere p).nodup

/-- `INSERT INTO consumption_queue_items`, which either constraint may refuse. -/
def insert? (s : Lectern) (q : ConsumptionQueueItem) : Option Lectern :=
  if h : q.id ∈ s.items.rows.map ConsumptionQueueItem.id ∨ q.userMedia ∈ s.items.rows.map ConsumptionQueueItem.userMedia
  then .none
  else .some {
    items := ⟨q :: s.items.rows, by
      rw [List.map_cons]
      exact List.nodup_cons.2 ⟨fun hid => h (.inl hid), s.items.nodup⟩⟩
    unique := by
      rw [List.map_cons]
      exact List.nodup_cons.2 ⟨fun hm => h (.inr hm), s.unique⟩ }

/-- A viewer's rows in canonical order. -/
def sortedRows (s : Lectern) (viewerId : Uuid) : List ConsumptionQueueItem :=
  (s.rowsOf viewerId).insertionSort fun a b => a.before b = true

/-! ## The store -/

def loadOrderRows (s : Lectern) (w : MediaView) (viewerId : Uuid) : List OrderRow :=
  (s.sortedRows viewerId).map fun q => ⟨q.id, q.mediaId, q.position, w.visible q.mediaId && !w.tearingDown q.mediaId⟩

/-- `_insert_row`; the media must exist for the foreign key. -/
def insertRow (s : Lectern) (w : MediaView) (viewerId mediaId : Uuid) (position : Nat) (source : LecternSource) :
    Except Abort (Lectern × Uuid) :=
  let row : ConsumptionQueueItem := ⟨w.newItemId mediaId, viewerId, mediaId, position, w.now, source⟩
  if (w.kind mediaId).isNone then .error .database
  else match s.insert? row with
    | .none => .error .database
    | .some s => .ok (s, row.id)

/-- The loop of inserts at `append_base + offset`; the pairs are media and item. -/
def insertRows (s : Lectern) (w : MediaView) (viewerId : Uuid) (source : LecternSource) (base : Nat) :
    List Uuid → Except Abort (Lectern × List (Uuid × Uuid))
  | [] => .ok (s, [])
  | m :: ms => match s.insertRow w viewerId m base source with
    | .error e => .error e
    | .ok (s, itemId) => match s.insertRows w viewerId source (base + 1) ms with
      | .error e => .error e
      | .ok (s, pairs) => .ok (s, (m, itemId) :: pairs)

/-- `_apply_dense_order`; a `WITH ORDINALITY` join, so each listed row gets the
place of its id. -/
def applyDenseOrder (s : Lectern) (viewerId : Uuid) (orderedItemIds : List Uuid) : Lectern :=
  if orderedItemIds.isEmpty then s
  else s.setPositions (fun q => orderedItemIds.contains q.id && q.userId == viewerId)
    fun q => orderedItemIds.idxOf q.id

/-- `_normalize_positions`: `ROW_NUMBER() - 1` in canonical order. -/
def normalizePositions (s : Lectern) (viewerId : Uuid) : Lectern :=
  let ordered := (s.sortedRows viewerId).map ConsumptionQueueItem.id
  s.setPositions (fun q => q.userId == viewerId && q.position != ordered.idxOf q.id) fun q => ordered.idxOf q.id

/-- The anchor checks of `place_items_in_txn`. -/
def checkAnchor (orderRows : List OrderRow) (blockMedia : List Uuid) : Placement → Except Abort Unit
  | .first | .last => .ok ()
  | .after anchorId => match orderRows.find? fun r => r.itemId == anchorId with
    | .none => .error (.api ⟨.notFound, "Anchor item not found"⟩)
    | .some anchor =>
      if blockMedia.contains anchor.mediaId then
        .error (.api ⟨.invalidRequest, "Anchor is part of the moved block"⟩)
      else if !anchor.visible then
        .error (.api ⟨.invalidRequest, "Anchor is not a visible Lectern item"⟩)
      else .ok ()

/-- Where the block goes among the rows that are not in it. -/
def insertIndex (remaining : List OrderRow) : Placement → Nat
  | .first => (remaining.findIdx? OrderRow.visible).getD 0
  | .last => match remaining.reverse.findIdx? OrderRow.visible with
    | .some fromEnd => remaining.length - fromEnd
    | .none => remaining.length
  | .after anchorId => remaining.findIdx (fun r => r.itemId == anchorId) + 1

def placeItemsInTxn (s : Lectern) (w : MediaView) (viewerId : Uuid) (mediaIds : List Uuid) (placement : Placement)
    (source : LecternSource) : Except Abort (Lectern × List Uuid) :=
  let orderRows := s.loadOrderRows w viewerId
  let existing := orderRows.map fun r => (r.mediaId, r.itemId)
  let newMedia := mediaIds.filter fun m => (existing.lookup m).isNone
  if lecternMaxItems < orderRows.length + newMedia.length then
    .error (.api ⟨.limit, "Lectern is at its item limit"⟩)
  else match checkAnchor orderRows mediaIds placement with
    | .error e => .error e
    | .ok () => match s.insertRows w viewerId source orderRows.length newMedia with
      | .error e => .error e
      | .ok (s, newItems) =>
        -- every requested media is in one of the two dicts
        let blockItemIds := mediaIds.filterMap fun m => (existing ++ newItems).lookup m
        let remaining := orderRows.filter fun r => !blockItemIds.contains r.itemId
        let k := insertIndex remaining placement
        let remainingIds := remaining.map OrderRow.itemId
        .ok (s.applyDenseOrder viewerId (remainingIds.take k ++ blockItemIds ++ remainingIds.drop k), blockItemIds)

/-- `SELECT id … WHERE id = … AND user_id = …` finds a row. -/
def hasItem (s : Lectern) (viewerId itemId : Uuid) : Bool :=
  (s.items.find? itemId).any fun q => q.userId == viewerId

/-- Delete the viewer's row and renumber the rest. -/
def deleteItem (s : Lectern) (viewerId itemId : Uuid) : Lectern :=
  (s.deleteWhere fun q => q.id == itemId && q.userId == viewerId).normalizePositions viewerId

def removeItemInTxn (s : Lectern) (viewerId itemId : Uuid) : Except Abort (Lectern × Uuid) :=
  if s.hasItem viewerId itemId then .ok (s.deleteItem viewerId itemId, itemId)
  else .error (.api ⟨.notFound, "Lectern item not found"⟩)

def removeItemIfPresentInTxn (s : Lectern) (viewerId itemId : Uuid) : Lectern × Option Uuid :=
  if s.hasItem viewerId itemId then (s.deleteItem viewerId itemId, .some itemId) else (s, .none)

/-- One `UPDATE … SET position = slot` for each pair of slot and id. -/
def assignSlots (s : Lectern) (viewerId : Uuid) : List (Nat × Uuid) → Lectern
  | [] => s
  | (slot, itemId) :: rest =>
    (s.setPositions (fun q => q.id == itemId && q.userId == viewerId) fun _ => slot).assignSlots viewerId rest

def setOrderInTxn (s : Lectern) (w : MediaView) (viewerId : Uuid) (itemIds : List Uuid) : Except Abort Lectern :=
  let visibleRows := (s.loadOrderRows w viewerId).filter OrderRow.visible
  let visibleIds := visibleRows.map OrderRow.itemId
  if !decide itemIds.Nodup || !itemIds.all visibleIds.contains || !visibleIds.all itemIds.contains then
    .error (.api ⟨.invalidRequest, "SetOrder requires the exact visible Lectern permutation"⟩)
  else
    let visibleSlots := (visibleRows.map OrderRow.position).insertionSort (· ≤ ·)
    .ok ((s.assignSlots viewerId (visibleSlots.zip itemIds)).normalizePositions viewerId)

def ensureMissingInTxn (s : Lectern) (w : MediaView) (viewerId : Uuid) (mediaIds : List Uuid)
    (source : LecternSource) : Except Abort (Lectern × List (Uuid × Uuid)) :=
  let deduped := dedupe [] mediaIds
  if deduped.any w.tearingDown then .error (.api ⟨.mediaDeleting, "A target media is being deleted"⟩)
  else
    let orderRows := s.loadOrderRows w viewerId
    let existing := orderRows.map OrderRow.mediaId
    let absent := deduped.filter fun m => !existing.contains m
    if absent.isEmpty then .ok (s, [])
    else if lecternMaxItems < orderRows.length + absent.length then
      .error (.api ⟨.limit, "Lectern is at its item limit"⟩)
    else s.insertRows w viewerId source orderRows.length absent

/-- `delete_all_users_in_txn`: no row left behind is renumbered. -/
def deleteAllUsersInTxn (s : Lectern) (mediaId : Uuid) : Lectern := s.deleteWhere fun q => q.mediaId == mediaId

/-! ## The commands -/

/-- `_validate_add_targets`; every kind a media can have is supported. -/
def validateAddTargets (w : MediaView) (mediaIds : List Uuid) : Except Abort Unit :=
  if !mediaIds.all w.canRead then .error (.api ⟨.notFound, "Media not found"⟩)
  else if mediaIds.any w.tearingDown then .error (.api ⟨.mediaDeleting, "A target media is being deleted"⟩)
  else if mediaIds.any fun m => (w.kind m).isNone then
    .error (.api ⟨.invalidKind, "Media cannot be added to the Lectern"⟩)
  else .ok ()

def applyLecternCommand (s : Lectern) (w : MediaView) (viewerId : Uuid) :
    LecternCommand → Except Abort (Lectern × LecternOutcome)
  | .placeItems mediaIds placement =>
    let mediaIds := dedupe [] mediaIds
    match validateAddTargets w mediaIds with
    | .error e => .error e
    | .ok () => (s.placeItemsInTxn w viewerId mediaIds placement .manual).map fun (s, ids) => (s, .placed ids)
  | .removeItem itemId => (s.removeItemInTxn viewerId itemId).map fun (s, id) => (s, .removed id)
  | .setOrder itemIds => (s.setOrderInTxn w viewerId itemIds).map fun s => (s, .ordered)

end Lectern

end Nexus.Consumption
