/-
The two ways a note is deleted: `remove_note_block` and `delete_highlight_note`
of `services/notes.py`.

Both purge the Dossiers about the note, its edges, the passage anchors it owned
and its protocol state, and drop the row; `remove_note_block` deletes its
content index too, between the anchors and the protocol state. `Removed` is
what either leaves of every table.

A Dossier is here the references of its head and revisions, whose edges go with
it; its own tables are another subsystem's.
-/
import Nexus.Notes.Cleanup

namespace Nexus.Notes
open Relational Graph Surfaces Mutations ExceptFacts

structure NoteRows (B R : Type) extends GraphRows where
  notes : Notes B
  versions : Versions
  mutations : Ledger R
  anchors : Table PassageAnchor PassageAnchor.id
  index : ContentIndex

variable {B R : Type}

/-! ## What belongs to a resource -/

/-- `text LIKE pattern || '%'`; `_` stands for any character. -/
def likePrefix : Text → Text → Bool
  | [], _ => true
  | _ :: _, [] => false
  | p :: pattern, c :: text => (p == '_' || p == c) && likePrefix pattern text

def mutationPattern (ref : ResourceRef) : Text := "resource:".toList ++ ref.uri ++ ":".toList

def ResourceViewState.isOf (viewerId : Uuid) (ref : ResourceRef) (v : ResourceViewState) : Bool :=
  v.userId == viewerId && (v.surface == ref || v.target == .some ref)

def versionIsOf (viewerId : Uuid) (ref : ResourceRef) (row : ResourceVersion) : Bool :=
  row.key.userId == viewerId && row.key.ref == ref

def memoIsOf (viewerId : Uuid) (ref : ResourceRef) (memo : ResourceMutation R) : Bool :=
  memo.key.viewerId == viewerId && likePrefix (mutationPattern ref) memo.key.mutationScope

def NoteRows.deleteResourceProtocolState (viewerId : Uuid) (ref : ResourceRef) (rows : NoteRows B R) : NoteRows B R :=
  { rows with
    versions := rows.versions.deleteWhere (versionIsOf viewerId ref)
    viewStates := rows.viewStates.deleteWhere (ResourceViewState.isOf viewerId ref)
    mutations := rows.mutations.deleteWhere (memoIsOf viewerId ref) }

/-- `delete_edges_for_deleted_resources`, on all rows. -/
def NoteRows.deleteEdgesFor (refs : List ResourceRef) (rows : NoteRows B R) : NoteRows B R :=
  { rows with toGraphRows := rows.toGraphRows.deleteEdgesForDeletedResources refs }

def NoteRows.anchorsOf (owner : ResourceRef) (rows : NoteRows B R) : List PassageAnchor :=
  rows.anchors.rows.filter fun anchor => anchor.owner == owner

/-- `passage_anchors.delete_for_owner` -/
def NoteRows.deleteForOwner (owner : ResourceRef) (rows : NoteRows B R) : NoteRows B R :=
  match rows.anchorsOf owner with
  | [] => rows
  | anchors =>
    let rows := rows.deleteEdgesFor (anchors.map PassageAnchor.ref)
    let rows := anchors.foldl (fun rows anchor => rows.deleteResourceProtocolState anchor.userId anchor.ref) rows
    { rows with anchors := rows.anchors.deleteWhere fun anchor => decide (anchor.id ∈ anchors.map PassageAnchor.id) }

/-- The spans and chunks of an index, as the graph knows them. -/
def ContentIndex.refs (owner : ResourceRef) (index : ContentIndex) : List ResourceRef :=
  ((index.spans.filter fun row => row.owner == owner).map fun row => ⟨.evidenceSpan, row.id⟩) ++
    (index.chunks.filter fun row => row.owner == owner).map fun row => ⟨.contentChunk, row.id⟩

/-- The row is of a chunk of the owner. -/
def ContentIndex.ofChunk (owner : ResourceRef) (index : ContentIndex) (row : ChunkRow) : Bool :=
  index.chunks.any fun chunk => chunk.id == row.chunkId && chunk.owner == owner

/-- The `DELETE`s of `replace_content_index_materialization` and the one of the
state row. -/
def ContentIndex.delete (owner : ResourceRef) (index : ContentIndex) : ContentIndex where
  embeddings := index.embeddings.filter fun row => !index.ofChunk owner row
  parts := index.parts.filter fun row => !index.ofChunk owner row
  chunks := index.chunks.filter fun row => row.owner != owner
  spans := index.spans.filter fun row => row.owner != owner
  blocks := index.blocks.filter fun row => row.owner != owner
  states := index.states.filter fun o => o != owner

def NoteRows.deleteContentIndex (owner : ResourceRef) (rows : NoteRows B R) : NoteRows B R :=
  { rows.deleteEdgesFor (rows.index.refs owner) with index := rows.index.delete owner }

/-! ## The two deletions -/

/-- `on_subject_deleted`: the edges of the heads and revisions about the note. -/
def NoteRows.onSubjectDeleted (dossiers : List ResourceRef) (rows : NoteRows B R) : NoteRows B R :=
  dossiers.foldl (fun rows ref => rows.deleteEdgesFor [ref]) rows

/-- `db.delete(block)` -/
def NoteRows.deleteNote (blockId : Uuid) (rows : NoteRows B R) : NoteRows B R :=
  { rows with notes := rows.notes.deleteWhere fun block => block.id == blockId }

def removeNoteBlock (dossiers : List ResourceRef) (viewerId blockId : Uuid) (rows : NoteRows B R) : NoteRows B R :=
  match rows.notes.find? blockId with
  | .none => rows
  | .some block =>
    if block.userId ≠ viewerId then rows
    else
      let ref := noteRef block.id
      let rows := rows.onSubjectDeleted dossiers
      let rows := rows.deleteEdgesFor [ref]
      let rows := rows.deleteForOwner ref
      let rows := rows.deleteContentIndex ref
      let rows := rows.deleteResourceProtocolState viewerId ref
      rows.deleteNote block.id

/-- What `delete_highlight_note` is told of other tables. -/
structure HighlightEnv where
  /-- `get_highlight_for_visible_read_or_404` finds the highlight -/
  visible : Bool
  /-- the heads and revisions of the Dossiers about a note -/
  dossiers : Uuid → List ResourceRef
  /-- `resource_edges.created_at` -/
  createdAt : Uuid → Instant

def firstNoteBlockForHighlight (env : HighlightEnv) (viewerId highlightId : Uuid) (rows : NoteRows B R) :
    Option (NoteBlock B) :=
  let joined := rows.edges.rows.flatMap fun e =>
    if e.userId = viewerId ∧ e.origin = .highlightNote ∧ e.source = ⟨.highlight, highlightId⟩ then
      (rows.notes.rows.filter fun block => decide (e.target = noteRef block.id ∧ block.userId = viewerId)).map fun block =>
        (e, block)
    else []
  (Table.firstBy (fun x y => ((compare (env.createdAt x.1.id) (env.createdAt y.1.id)).then
    (compare x.1.id y.1.id)).isLE) joined).map Prod.snd

def deleteHighlightNote (env : HighlightEnv) (viewerId highlightId : Uuid) (noteBlockId : Option Uuid)
    (rows : NoteRows B R) : Except Abort (NoteRows B R) :=
  if !env.visible then .error (.api ⟨.mediaNotFound, "Not found"⟩)
  else match firstNoteBlockForHighlight env viewerId highlightId rows with
    | .none => .ok rows
    | .some existing =>
      if noteBlockId.any (· ≠ existing.id) then .error (.api ⟨.notFound, "Note block not found"⟩)
      else
        let ref := noteRef existing.id
        let rows := rows.onSubjectDeleted (env.dossiers existing.id)
        let rows := rows.deleteEdgesFor [ref]
        let rows := rows.deleteForOwner ref
        let rows := rows.deleteResourceProtocolState viewerId ref
        .ok (rows.deleteNote existing.id)

/-! ## What a deletion leaves -/

/-- The row belongs to one of the owners, each a user and a resource. -/
def ownedBy {α : Type} (isOf : Uuid → ResourceRef → α → Bool) (owners : List (Uuid × ResourceRef)) (a : α) : Bool :=
  owners.any fun o => isOf o.1 o.2 a

/-- The graph without the dead resources, and the protocol state without its owners'. -/
structure Swept (dead : List ResourceRef) (owners : List (Uuid × ResourceRef)) (s t : NoteRows B R) : Prop where
  graph : Cleaned dead (ownedBy ResourceViewState.isOf owners) s.toGraphRows t.toGraphRows
  versions : t.versions.rows = s.versions.rows.filter fun row => !ownedBy versionIsOf owners row
  mutations : t.mutations.rows = s.mutations.rows.filter fun memo => !ownedBy memoIsOf owners memo

variable {dead dead' : List ResourceRef} {owners owners' : List (Uuid × ResourceRef)} {s t u : NoteRows B R}

theorem ownedBy_append {α : Type} (isOf : Uuid → ResourceRef → α → Bool) (a : α) :
    ownedBy isOf (owners ++ owners') a = (ownedBy isOf owners a || ownedBy isOf owners' a) := List.any_append

theorem Swept.refl (s : NoteRows B R) : Swept [] [] s s where
  graph := .refl _
  versions := by simp [ownedBy]
  mutations := by simp [ownedBy]

theorem Swept.trans (h : Swept dead owners s t) (h' : Swept dead' owners' t u) :
    Swept (dead ++ dead') (owners ++ owners') s u where
  graph := by
    have hown : ownedBy ResourceViewState.isOf (owners ++ owners') =
        fun v => ownedBy ResourceViewState.isOf owners v || ownedBy ResourceViewState.isOf owners' v :=
      funext fun v => ownedBy_append _ v
    rw [hown]
    exact h.graph.trans h'.graph
  versions := by
    rw [h'.versions, h.versions, List.filter_filter]
    exact List.filter_congr fun row _ => by rw [ownedBy_append, Bool.not_or, Bool.and_comm]
  mutations := by
    rw [h'.mutations, h.mutations, List.filter_filter]
    exact List.filter_congr fun memo _ => by rw [ownedBy_append, Bool.not_or, Bool.and_comm]

theorem swept_deleteEdgesFor (refs : List ResourceRef) (s : NoteRows B R) : Swept refs [] s (s.deleteEdgesFor refs) where
  graph := cleaned_deleteEdgesForDeletedResources refs _
  versions := (Swept.refl s).versions
  mutations := (Swept.refl s).mutations

theorem swept_protocolState (viewerId : Uuid) (ref : ResourceRef) (s : NoteRows B R) :
    Swept [] [(viewerId, ref)] s (s.deleteResourceProtocolState viewerId ref) where
  graph := by
    have hown : ownedBy ResourceViewState.isOf [(viewerId, ref)] = ResourceViewState.isOf viewerId ref :=
      funext fun v => by simp [ownedBy]
    rw [hown]
    exact .of_own rfl
  versions := List.filter_congr fun row _ => by simp [ownedBy]
  mutations := List.filter_congr fun memo _ => by simp [ownedBy]

theorem swept_onSubjectDeleted (dossiers : List ResourceRef) (s : NoteRows B R) :
    Swept dossiers [] s (s.onSubjectDeleted dossiers) := by
  induction dossiers generalizing s with
  | nil => exact .refl s
  | cons ref dossiers ih => exact (swept_deleteEdgesFor [ref] s).trans (ih (s.deleteEdgesFor [ref]))

theorem swept_protocolStates (anchors : List PassageAnchor) (s : NoteRows B R) :
    Swept [] (anchors.map fun anchor => (anchor.userId, anchor.ref)) s
      (anchors.foldl (fun rows anchor => rows.deleteResourceProtocolState anchor.userId anchor.ref) s) := by
  induction anchors generalizing s with
  | nil => exact .refl s
  | cons anchor anchors ih =>
    exact (swept_protocolState anchor.userId anchor.ref s).trans (ih (s.deleteResourceProtocolState anchor.userId anchor.ref))

/-- What a step leaves of the tables no cleanup of the graph touches. -/
structure Keeps (s t : NoteRows B R) : Prop where
  notes : t.notes = s.notes
  anchors : t.anchors = s.anchors
  index : t.index = s.index

theorem Keeps.trans (h : Keeps s t) (h' : Keeps t u) : Keeps s u :=
  ⟨h'.notes.trans h.notes, h'.anchors.trans h.anchors, h'.index.trans h.index⟩

theorem keeps_onSubjectDeleted (dossiers : List ResourceRef) (s : NoteRows B R) : Keeps s (s.onSubjectDeleted dossiers) := by
  induction dossiers generalizing s with
  | nil => exact ⟨rfl, rfl, rfl⟩
  | cons ref dossiers ih =>
    have hstep : Keeps s (s.deleteEdgesFor [ref]) := ⟨rfl, rfl, rfl⟩
    exact hstep.trans (ih _)

theorem keeps_protocolStates (anchors : List PassageAnchor) (s : NoteRows B R) :
    Keeps s (anchors.foldl (fun rows anchor => rows.deleteResourceProtocolState anchor.userId anchor.ref) s) := by
  induction anchors generalizing s with
  | nil => exact ⟨rfl, rfl, rfl⟩
  | cons anchor anchors ih =>
    have hstep : Keeps s (s.deleteResourceProtocolState anchor.userId anchor.ref) := ⟨rfl, rfl, rfl⟩
    exact hstep.trans (ih _)

theorem swept_deleteForOwner (owner : ResourceRef) (s : NoteRows B R) :
    Swept ((s.anchorsOf owner).map PassageAnchor.ref) ((s.anchorsOf owner).map fun anchor => (anchor.userId, anchor.ref)) s
        (s.deleteForOwner owner) ∧
      (s.deleteForOwner owner).notes = s.notes ∧ (s.deleteForOwner owner).index = s.index ∧
      (s.deleteForOwner owner).anchors.rows = s.anchors.rows.filter fun anchor => anchor.owner != owner := by
  unfold NoteRows.deleteForOwner
  split
  next hnone =>
    rw [hnone]
    refine ⟨.refl s, rfl, rfl, (List.filter_eq_self.2 fun anchor hanchor => ?_).symm⟩
    have hother := List.filter_eq_nil_iff.1 hnone anchor hanchor
    simpa using hother
  next hsome =>
    generalize hlist : s.anchorsOf owner = anchors
    have hsweep := (swept_deleteEdgesFor (anchors.map PassageAnchor.ref) s).trans (swept_protocolStates anchors _)
    have hkeep := keeps_protocolStates anchors (s.deleteEdgesFor (anchors.map PassageAnchor.ref))
    simp only [List.append_nil, List.nil_append] at hsweep
    refine ⟨⟨hsweep.graph, hsweep.versions, hsweep.mutations⟩, hkeep.notes, hkeep.index, ?_⟩
    show (NoteRows.anchors _).rows.filter _ = _
    rw [hkeep.anchors]
    refine List.filter_congr fun anchor hanchor => ?_
    rw [Bool.eq_iff_iff]
    simp only [Bool.not_eq_true', decide_eq_false_iff_not, bne_iff_ne, ne_eq, not_iff_not]
    constructor
    · intro hid
      obtain ⟨a, ha, hsame⟩ := List.mem_map.1 hid
      rw [← hlist] at ha
      obtain ⟨hmem, howner⟩ := List.mem_filter.1 ha
      rw [← Table.eq_of_key hmem hanchor hsame]
      simpa using howner
    · rintro howner
      refine List.mem_map.2 ⟨anchor, ?_, rfl⟩
      rw [← hlist]
      exact List.mem_filter.2 ⟨hanchor, by simpa using howner⟩

end Nexus.Notes
