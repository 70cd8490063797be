/-
A deleted note leaves nothing behind, and what is not its own stays.

`Gone` is what is left of the note itself, `Spares` what is left of everything
else. Both deletions go through one prefix (`emptied`), so they are told apart
only by the content index: the state `remove_note_block` leaves is that of
`delete_highlight_note` with the index deleted.

What does go with a note besides its own rows: the edges of the Dossiers about
it and of the anchors it owned, and the Link-note edges of a note one of whose
targets died.
-/
import Nexus.Notes.Deletion

namespace Nexus.Notes
open Relational Graph Surfaces Mutations ExceptFacts

variable {B R : Type} {s t : NoteRows B R}

/-! ## Scopes of memos -/

theorem likePrefix_append {p q a b : Text} (h : p.length = a.length) :
    likePrefix (p ++ q) (a ++ b) = (likePrefix p a && likePrefix q b) := by
  induction p generalizing a with
  | nil =>
    cases a with
    | nil => rfl
    | cons c a => cases h
  | cons c p ih =>
    cases a with
    | nil => cases h
    | cons d a =>
      have htail := ih (Nat.succ.inj h)
      simp only [List.cons_append, likePrefix, htail, Bool.and_assoc]

theorem eq_of_likePrefix {p a : Text} (hlike : likePrefix p a = true) (hplain : '_' ∉ p) (h : p.length = a.length) :
    p = a := by
  induction p generalizing a with
  | nil => exact (List.length_eq_zero_iff.1 h.symm).symm
  | cons c p ih =>
    cases a with
    | nil => cases h
    | cons d a =>
      simp only [likePrefix, Bool.and_eq_true, Bool.or_eq_true, beq_iff_eq] at hlike
      simp only [List.mem_cons, not_or] at hplain
      have hhead : c = d := hlike.1.resolve_left fun hc => hplain.1 hc.symm
      rw [hhead, ih hlike.2 hplain.2 (Nat.succ.inj h)]

theorem length_uuidStr (id : Uuid) : (uuidStr id).length = 36 := by
  simp [uuidStr, UuidBytes.str, Hex.length_encode, (UuidBytes.ofNat id).length_bytes]

theorem not_mem_uuidStr (id : Uuid) : '_' ∉ uuidStr id := by
  have hhex : '_' ∉ Hex.encode (UuidBytes.ofNat id).bytes := fun h => by
    have hdigit := Hex.decodeDigit_of_mem_encode h
    revert hdigit
    decide
  intro h
  simp only [uuidStr, UuidBytes.str, List.mem_append, List.mem_cons] at h
  rcases h with h | h | h | h | h | h | h | h | h
  · exact hhex (List.mem_of_mem_take h)
  · revert h; decide
  · exact hhex (List.mem_of_mem_drop (List.mem_of_mem_take h))
  · revert h; decide
  · exact hhex (List.mem_of_mem_drop (List.mem_of_mem_take h))
  · revert h; decide
  · exact hhex (List.mem_of_mem_drop (List.mem_of_mem_take h))
  · revert h; decide
  · exact hhex (List.mem_of_mem_drop h)

theorem scoped_append (head scheme id tail : Text) :
    head ++ (scheme ++ ':' :: id) ++ tail = (head ++ (scheme ++ [':'])) ++ (id ++ tail) := by
  simp only [List.append_assoc, List.cons_append, List.nil_append]

theorem likePrefix_noteRef {id other : Uuid} (h : uuidStr other ≠ uuidStr id) (rest : Text) :
    likePrefix (mutationPattern (noteRef id)) (mutationPattern (noteRef other) ++ rest) = false := by
  have hlength : (uuidStr id).length = (uuidStr other).length := by rw [length_uuidStr, length_uuidStr]
  have hpattern : ∀ n : Uuid, mutationPattern (noteRef n) =
      ("resource:".toList ++ (ResourceScheme.noteBlock.value ++ [':'])) ++ (uuidStr n ++ ":".toList) :=
    fun n => scoped_append _ _ _ _
  generalize "resource:".toList ++ (ResourceScheme.noteBlock.value ++ [':']) = head at hpattern
  generalize ":".toList = tail at hpattern
  rw [hpattern, hpattern, List.append_assoc, likePrefix_append rfl, List.append_assoc, likePrefix_append hlength]
  cases hlike : likePrefix (uuidStr id) (uuidStr other) with
  | false => rw [Bool.false_and, Bool.and_false]
  | true => exact absurd (eq_of_likePrefix hlike (not_mem_uuidStr id) hlength).symm h

theorem likePrefix_anchorRef (anchor : PassageAnchor) (other : Uuid) (rest : Text) :
    likePrefix (mutationPattern anchor.ref) (mutationPattern (noteRef other) ++ rest) = false := by
  have hpattern : ∀ ref : ResourceRef, mutationPattern ref =
      ("resource:".toList ++ (ref.scheme.value ++ [':'])) ++ (uuidStr ref.id ++ ":".toList) :=
    fun ref => scoped_append _ _ _ _
  have hother : ∀ a : Text, likePrefix ("resource:".toList ++ (ResourceScheme.passageAnchor.value ++ [':']) ++ a)
      (("resource:".toList ++ (ResourceScheme.noteBlock.value ++ [':'])) ++ (uuidStr other ++ ":".toList) ++ rest) = false := by
    intro a
    have hscheme : ResourceScheme.passageAnchor.value = 'p' :: "assage_anchor".toList := by decide +kernel
    have hnote : ResourceScheme.noteBlock.value = 'n' :: "ote_block".toList := by decide +kernel
    have hhead : (('p' == '_') || ('p' == 'n')) = false := by decide
    generalize "assage_anchor".toList = x at hscheme
    generalize "ote_block".toList = y at hnote
    generalize "resource:".toList = head
    generalize ":".toList = tail
    rw [hscheme, hnote]
    simp only [List.append_assoc, List.cons_append]
    rw [likePrefix_append rfl, likePrefix, hhead, Bool.false_and, Bool.and_false]
  rw [hpattern, hpattern]
  exact hother _

/-! ## The content index -/

theorem ofChunk_delete (owner : ResourceRef) (index : ContentIndex) (row : ChunkRow) :
    (index.delete owner).ofChunk owner row = false := by
  simp only [ContentIndex.ofChunk, ContentIndex.delete, List.any_filter, List.any_eq_false, Bool.and_eq_true,
    bne_iff_ne, beq_iff_eq, not_and]
  intro chunk _ hother _
  exact hother

theorem delete_delete (owner : ResourceRef) (index : ContentIndex) :
    (index.delete owner).delete owner = index.delete owner := by
  have hchunk : ∀ row, (index.delete owner).ofChunk owner row = false := ofChunk_delete owner index
  have hrows : ∀ rows : List ChunkRow, (rows.filter fun row => !(index.delete owner).ofChunk owner row) = rows :=
    fun rows => List.filter_eq_self.2 fun row _ => by rw [hchunk, Bool.not_false]
  rw [ContentIndex.delete, hrows, hrows]
  simp only [ContentIndex.delete, List.filter_filter, Bool.and_self]

/-- No row of the index is the owner's. -/
structure ContentIndex.Without (owner : ResourceRef) (index : ContentIndex) : Prop where
  blocks : ∀ row ∈ index.blocks, row.owner ≠ owner
  chunks : ∀ row ∈ index.chunks, row.owner ≠ owner
  spans : ∀ row ∈ index.spans, row.owner ≠ owner
  states : owner ∉ index.states

theorem without_delete (owner : ResourceRef) (index : ContentIndex) : (index.delete owner).Without owner where
  blocks row hrow := by simpa using (List.mem_filter.1 hrow).2
  chunks row hrow := by simpa using (List.mem_filter.1 hrow).2
  spans row hrow := by simpa using (List.mem_filter.1 hrow).2
  states hrow := by simpa using (List.mem_filter.1 hrow).2

/-! ## Cleanups that do not meet -/

theorem deleteEdges_viewStates (rows : GraphRows) (p : ResourceEdge → Bool) (own : ResourceViewState → Bool) :
    ({ rows with viewStates := rows.viewStates.deleteWhere own } : GraphRows).deleteEdges p =
      { rows.deleteEdges p with viewStates := (rows.deleteEdges p).viewStates.deleteWhere own } := by
  simp only [GraphRows.deleteEdges]
  rw [Table.deleteWhere_comm]

theorem deleteEdgesForDeletedResources_viewStates (refs : List ResourceRef) (rows : GraphRows)
    (own : ResourceViewState → Bool) :
    ({ rows with viewStates := rows.viewStates.deleteWhere own } : GraphRows).deleteEdgesForDeletedResources refs =
      { rows.deleteEdgesForDeletedResources refs with
        viewStates := (rows.deleteEdgesForDeletedResources refs).viewStates.deleteWhere own } := by
  simp only [GraphRows.deleteEdgesForDeletedResources, GraphRows.deleteOrphanedExternalSnapshots]
  rw [deleteEdges_viewStates, deleteEdges_viewStates, deleteEdges_viewStates]

theorem deleteContentIndex_last (viewerId blockId : Uuid) (ref owner : ResourceRef) (s : NoteRows B R) :
    ((s.deleteContentIndex owner).deleteResourceProtocolState viewerId ref).deleteNote blockId =
      ((s.deleteResourceProtocolState viewerId ref).deleteNote blockId).deleteContentIndex owner := by
  have hgraph := deleteEdgesForDeletedResources_viewStates (s.index.refs owner) s.toGraphRows
    (ResourceViewState.isOf viewerId ref)
  simp only [NoteRows.deleteContentIndex, NoteRows.deleteResourceProtocolState, NoteRows.deleteNote,
    NoteRows.deleteEdgesFor]
  rw [hgraph]

/-! ## The two deletions -/

/-- The resources that die with a note. -/
def dyingWith (dossiers : List ResourceRef) (ref : ResourceRef) (s : NoteRows B R) : List ResourceRef :=
  dossiers ++ ref :: (s.anchorsOf ref).map PassageAnchor.ref

def ownersWith (viewerId : Uuid) (ref : ResourceRef) (s : NoteRows B R) : List (Uuid × ResourceRef) :=
  ((s.anchorsOf ref).map fun anchor => (anchor.userId, anchor.ref)) ++ [(viewerId, ref)]

/-- The common beginning of the deletions. -/
def emptied (dossiers : List ResourceRef) (ref : ResourceRef) (s : NoteRows B R) : NoteRows B R :=
  ((s.onSubjectDeleted dossiers).deleteEdgesFor [ref]).deleteForOwner ref

/-- The end `delete_highlight_note` has. -/
def finished (dossiers : List ResourceRef) (viewerId : Uuid) (blockId : Uuid) (s : NoteRows B R) : NoteRows B R :=
  ((emptied dossiers (noteRef blockId) s).deleteResourceProtocolState viewerId (noteRef blockId)).deleteNote blockId

theorem swept_finished (dossiers : List ResourceRef) (viewerId blockId : Uuid) (s : NoteRows B R) :
    Swept (dyingWith dossiers (noteRef blockId) s) (ownersWith viewerId (noteRef blockId) s) s
        (finished dossiers viewerId blockId s) ∧
      (finished dossiers viewerId blockId s).notes = s.notes.deleteWhere (fun block => block.id == blockId) ∧
      (finished dossiers viewerId blockId s).index = s.index ∧
      (finished dossiers viewerId blockId s).anchors.rows = s.anchors.rows.filter fun anchor => anchor.owner != noteRef blockId := by
  have hdossiers := swept_onSubjectDeleted dossiers s
  have hkeep := keeps_onSubjectDeleted dossiers s
  have hedges := swept_deleteEdgesFor [noteRef blockId] (s.onSubjectDeleted dossiers)
  obtain ⟨hanchors, hnotes, hindex, hrows⟩ :=
    swept_deleteForOwner (noteRef blockId) ((s.onSubjectDeleted dossiers).deleteEdgesFor [noteRef blockId])
  have hsame : NoteRows.anchorsOf (noteRef blockId) ((s.onSubjectDeleted dossiers).deleteEdgesFor [noteRef blockId]) =
      s.anchorsOf (noteRef blockId) := by
    show List.filter _ (s.onSubjectDeleted dossiers).anchors.rows = _
    rw [hkeep.anchors]
    rfl
  rw [hsame] at hanchors
  have hstate := swept_protocolState viewerId (noteRef blockId) (emptied dossiers (noteRef blockId) s)
  have hall := ((hdossiers.trans hedges).trans hanchors).trans hstate
  simp only [List.nil_append, List.append_nil, List.append_assoc, List.singleton_append] at hall
  refine ⟨⟨hall.graph, hall.versions, hall.mutations⟩, ?_, ?_, ?_⟩
  · show Table.deleteWhere (emptied dossiers (noteRef blockId) s).notes _ = _
    rw [emptied, hnotes]
    show Table.deleteWhere (s.onSubjectDeleted dossiers).notes _ = _
    rw [hkeep.notes]
  · exact hindex.trans hkeep.index
  · refine hrows.trans ?_
    show List.filter _ (s.onSubjectDeleted dossiers).anchors.rows = _
    rw [hkeep.anchors]

theorem removeNoteBlock_eq (dossiers : List ResourceRef) {viewerId : Uuid} {block : NoteBlock B}
    (hblock : block ∈ s.notes.rows) (howner : block.userId = viewerId) :
    removeNoteBlock dossiers viewerId block.id s =
      (finished dossiers viewerId block.id s).deleteContentIndex (noteRef block.id) := by
  have hfind : s.notes.find? block.id = .some block := Table.find?_of_mem hblock
  simp only [removeNoteBlock, hfind, howner, ne_eq, not_true_eq_false, if_false]
  exact deleteContentIndex_last viewerId block.id (noteRef block.id) (noteRef block.id)
    (emptied dossiers (noteRef block.id) s)

theorem swept_removeNoteBlock (dossiers : List ResourceRef) {viewerId : Uuid} {block : NoteBlock B}
    (hblock : block ∈ s.notes.rows) (howner : block.userId = viewerId) :
    Swept (dyingWith dossiers (noteRef block.id) s ++ s.index.refs (noteRef block.id))
        (ownersWith viewerId (noteRef block.id) s) s (removeNoteBlock dossiers viewerId block.id s) ∧
      (removeNoteBlock dossiers viewerId block.id s).notes = s.notes.deleteWhere (fun b => b.id == block.id) ∧
      (removeNoteBlock dossiers viewerId block.id s).index = s.index.delete (noteRef block.id) ∧
      (removeNoteBlock dossiers viewerId block.id s).anchors.rows =
        s.anchors.rows.filter fun anchor => anchor.owner != noteRef block.id := by
  obtain ⟨hswept, hnotes, hindex, hanchors⟩ := swept_finished dossiers viewerId block.id s
  have hrefs := swept_deleteEdgesFor (s.index.refs (noteRef block.id)) (finished dossiers viewerId block.id s)
  have hall := hswept.trans hrefs
  rw [List.append_nil] at hall
  rw [removeNoteBlock_eq dossiers hblock howner]
  refine ⟨?_, hnotes, ?_, hanchors⟩
  · simp only [NoteRows.deleteContentIndex, hindex]
    exact ⟨hall.graph, hall.versions, hall.mutations⟩
  · simp only [NoteRows.deleteContentIndex, hindex]

theorem deleteHighlightNote_eq {env : HighlightEnv} {viewerId highlightId : Uuid} {noteBlockId : Option Uuid}
    {block : NoteBlock B} (hfirst : firstNoteBlockForHighlight env viewerId highlightId s = .some block)
    (h : deleteHighlightNote env viewerId highlightId noteBlockId s = .ok t) :
    t = finished (env.dossiers block.id) viewerId block.id s := by
  unfold deleteHighlightNote at h
  split at h
  · cases h
  · rw [hfirst] at h
    simp only at h
    split at h
    · cases h
    · cases h
      rfl

theorem mem_of_firstNoteBlock {env : HighlightEnv} {viewerId highlightId : Uuid} {block : NoteBlock B}
    (h : firstNoteBlockForHighlight env viewerId highlightId s = .some block) :
    block ∈ s.notes.rows ∧ block.userId = viewerId := by
  simp only [firstNoteBlockForHighlight, Option.map_eq_some_iff] at h
  obtain ⟨⟨e, b⟩, hfirst, rfl⟩ := h
  have hmem := Table.firstBy_mem hfirst
  obtain ⟨e', -, hmem⟩ := List.mem_flatMap.1 hmem
  split at hmem
  · obtain ⟨b', hb', heq⟩ := List.mem_map.1 hmem
    obtain ⟨hrow, hown⟩ := List.mem_filter.1 hb'
    cases heq
    exact ⟨hrow, (of_decide_eq_true hown).2⟩
  · cases hmem

/-! ## Nothing left, and nothing else gone -/

/-- Nothing of the note, and of its owner's state about it, is left. -/
structure Gone (viewerId blockId : Uuid) (t : NoteRows B R) : Prop where
  note : ∀ block ∈ t.notes.rows, block.id ≠ blockId
  edges : ∀ e ∈ t.edges.rows, e.ordinal = .none → e.source ≠ noteRef blockId ∧ e.target ≠ noteRef blockId
  anchors : ∀ anchor ∈ t.anchors.rows, anchor.owner ≠ noteRef blockId
  viewStates : ∀ v ∈ t.viewStates.rows, v.userId = viewerId →
    v.surface ≠ noteRef blockId ∧ v.target ≠ .some (noteRef blockId)
  versions : ∀ row ∈ t.versions.rows, row.key.userId = viewerId → row.key.ref ≠ noteRef blockId
  memos : ∀ memo ∈ t.mutations.rows, memo.key.viewerId = viewerId →
    ∀ rest, memo.key.mutationScope ≠ mutationPattern (noteRef blockId) ++ rest

/-- The edge touches nothing that died and no Link note that lost a target. -/
structure Apart (dead : List ResourceRef) (s : Edges) (e : ResourceEdge) : Prop where
  source : e.source ∉ dead
  /-- a citation outlives what it cites -/
  target : e.ordinal = .none → e.target ∉ dead
  motif : e.origin = .linkNote → ∀ f ∈ s.rows, f.origin = .linkNote → f.source = e.source → f.target ∉ dead

/-- The resource is neither the note nor an anchor it owned. -/
def NotOf (blockId : Uuid) (s : NoteRows B R) (ref : ResourceRef) : Prop :=
  ref ≠ noteRef blockId ∧ ∀ anchor ∈ s.anchors.rows, anchor.owner = noteRef blockId → ref ≠ anchor.ref

/-- Every other row stays, and none is new. -/
structure Spares (dead : List ResourceRef) (blockId : Uuid) (s t : NoteRows B R) : Prop where
  notes : ∀ block, block.id ≠ blockId → (block ∈ t.notes.rows ↔ block ∈ s.notes.rows)
  edges : ∀ e, Apart dead s.edges e → (e ∈ t.edges.rows ↔ e ∈ s.edges.rows)
  noEdge : ∀ e ∈ t.edges.rows, e ∈ s.edges.rows
  anchors : ∀ anchor, anchor.owner ≠ noteRef blockId → (anchor ∈ t.anchors.rows ↔ anchor ∈ s.anchors.rows)
  /-- of other resources, and of no edge that went -/
  viewStates : ∀ v, NotOf blockId s v.surface → (∀ target, v.target = .some target → NotOf blockId s target) →
    (∀ id, v.edgeId = .some id → ∀ e ∈ s.edges.rows, e.id = id → Apart dead s.edges e) →
    (v ∈ t.viewStates.rows ↔ v ∈ s.viewStates.rows)
  versions : ∀ row, NotOf blockId s row.key.ref → (row ∈ t.versions.rows ↔ row ∈ s.versions.rows)
  memos : ∀ memo other rest, uuidStr other ≠ uuidStr blockId →
    memo.key.mutationScope = mutationPattern (noteRef other) ++ rest →
    (memo ∈ t.mutations.rows ↔ memo ∈ s.mutations.rows)
  index : t.index.delete (noteRef blockId) = s.index.delete (noteRef blockId)

theorem doomed_of_apart {dead : List ResourceRef} {s : Edges} {e : ResourceEdge} (h : Apart dead s e) :
    doomed dead s e = false := by
  rw [← Bool.not_eq_true, doomed_eq_true]
  rintro (hmotif | hbare | hcited)
  · obtain ⟨ho, f, hf, hfo, htarget, hsource⟩ := inDeadMotif_eq_true.1 hmotif
    exact h.motif ho f hf hfo hsource htarget
  · obtain ⟨hordinal, hs | ht⟩ := bareTouches_eq_true.1 hbare
    · exact h.source hs
    · exact h.target hordinal ht
  · exact h.source (citedFrom_eq_true.1 hcited).2

theorem ownedBy_ownersWith {α : Type} {isOf : Uuid → ResourceRef → α → Bool} {viewerId blockId : Uuid} {a : α} :
    ownedBy isOf (ownersWith viewerId (noteRef blockId) s) a = true ↔
      isOf viewerId (noteRef blockId) a = true ∨
        ∃ anchor ∈ s.anchors.rows, anchor.owner = noteRef blockId ∧ isOf anchor.userId anchor.ref a = true := by
  simp only [ownersWith, ownedBy_append, Bool.or_eq_true]
  rw [or_comm]
  simp [ownedBy, NoteRows.anchorsOf]

theorem Apart.mono {dead dead' : List ResourceRef} {s : Edges} {e : ResourceEdge} (hsub : ∀ r ∈ dead, r ∈ dead')
    (h : Apart dead' s e) : Apart dead s e where
  source hr := h.source (hsub _ hr)
  target ho hr := h.target ho (hsub _ hr)
  motif ho f hf hfo hs hr := h.motif ho f hf hfo hs (hsub _ hr)

variable {dead : List ResourceRef} {viewerId blockId : Uuid}

theorem gone_of_swept (hswept : Swept dead (ownersWith viewerId (noteRef blockId) s) s t) (hdead : noteRef blockId ∈ dead)
    (hnotes : t.notes = s.notes.deleteWhere fun block => block.id == blockId)
    (hanchors : t.anchors.rows = s.anchors.rows.filter fun anchor => anchor.owner != noteRef blockId) :
    Gone viewerId blockId t where
  note block hblock := by
    rw [hnotes] at hblock
    simpa using (Table.mem_deleteWhere.1 hblock).2
  edges e he hordinal := by
    rw [hswept.graph.edges] at he
    have hkept := (mem_purgeEdges.1 he).2
    constructor <;> intro heq <;> refine absurd (doomed_eq_true.2 (.inr (.inl (bareTouches_eq_true.2 ⟨hordinal, ?_⟩))))
      (ne_true_of_eq_false hkept)
    · exact .inl (heq ▸ hdead)
    · exact .inr (heq ▸ hdead)
  anchors anchor hanchor := by
    rw [hanchors] at hanchor
    simpa using (List.mem_filter.1 hanchor).2
  viewStates v hv hviewer := by
    rw [hswept.graph.viewStates] at hv
    have hkept := (List.mem_filter.1 hv).2
    have hnot : ¬ResourceViewState.isOf viewerId (noteRef blockId) v = true := by
      intro hof
      rw [ownedBy_ownersWith.2 (.inl hof), Bool.or_true] at hkept
      cases hkept
    simpa [ResourceViewState.isOf, hviewer] using hnot
  versions row hrow hviewer hof := by
    rw [hswept.versions] at hrow
    have hkept := (List.mem_filter.1 hrow).2
    have hown : versionIsOf viewerId (noteRef blockId) row = true := by simp [versionIsOf, hviewer, hof]
    rw [ownedBy_ownersWith.2 (.inl hown)] at hkept
    cases hkept
  memos memo hmemo hviewer rest hscope := by
    rw [hswept.mutations] at hmemo
    have hkept := (List.mem_filter.1 hmemo).2
    have hlike : likePrefix (mutationPattern (noteRef blockId)) (mutationPattern (noteRef blockId) ++ rest) = true := by
      have hself : ∀ p : Text, likePrefix p p = true := fun p => by
        induction p with
        | nil => rfl
        | cons c p ih => simp [likePrefix, ih]
      have happend := likePrefix_append (p := mutationPattern (noteRef blockId)) (q := []) (b := rest) rfl
      rw [List.append_nil, hself] at happend
      exact happend
    have hown : memoIsOf viewerId (noteRef blockId) memo = true := by simp [memoIsOf, hviewer, hscope, hlike]
    rw [ownedBy_ownersWith.2 (.inl hown)] at hkept
    cases hkept

theorem spares_of_swept (hswept : Swept dead (ownersWith viewerId (noteRef blockId) s) s t)
    (hnotes : t.notes = s.notes.deleteWhere fun block => block.id == blockId)
    (hanchors : t.anchors.rows = s.anchors.rows.filter fun anchor => anchor.owner != noteRef blockId)
    (hindex : t.index.delete (noteRef blockId) = s.index.delete (noteRef blockId)) : Spares dead blockId s t where
  notes block hblock := by
    rw [hnotes, Table.mem_deleteWhere]
    simp [hblock]
  edges e he := by
    rw [hswept.graph.edges, mem_purgeEdges]
    exact and_iff_left (doomed_of_apart he)
  noEdge e he := by
    rw [hswept.graph.edges] at he
    exact (mem_purgeEdges.1 he).1
  anchors anchor hanchor := by
    rw [hanchors, List.mem_filter]
    simp [hanchor]
  viewStates v hsurface htarget hedge := by
    rw [hswept.graph.viewStates, List.mem_filter]
    refine and_iff_left ?_
    rw [Bool.not_eq_true', Bool.or_eq_false_iff, ← Bool.not_eq_true, ← Bool.not_eq_true, hangsOn_eq_true,
      ownedBy_ownersWith]
    constructor
    · rintro ⟨id, hid, e, he, hkey, hdoomed⟩
      rw [doomed_of_apart (hedge id hid e he hkey)] at hdoomed
      cases hdoomed
    · simp only [ResourceViewState.isOf, Bool.and_eq_true, Bool.or_eq_true, beq_iff_eq]
      rintro (⟨-, h | h⟩ | ⟨anchor, hanchor, howner, -, h | h⟩)
      · exact hsurface.1 h
      · exact (htarget _ h).1 rfl
      · exact hsurface.2 anchor hanchor howner h
      · exact (htarget _ h).2 anchor hanchor howner rfl
  versions row hrow := by
    rw [hswept.versions, List.mem_filter]
    refine and_iff_left ?_
    rw [Bool.not_eq_true', ← Bool.not_eq_true, ownedBy_ownersWith]
    simp only [versionIsOf, Bool.and_eq_true, beq_iff_eq]
    rintro (⟨-, h⟩ | ⟨anchor, hanchor, howner, -, h⟩)
    · exact hrow.1 h
    · exact hrow.2 anchor hanchor howner h
  memos memo other rest hother hscope := by
    rw [hswept.mutations, List.mem_filter]
    refine and_iff_left ?_
    rw [Bool.not_eq_true', ← Bool.not_eq_true, ownedBy_ownersWith]
    simp only [memoIsOf, Bool.and_eq_true, hscope, likePrefix_noteRef hother, likePrefix_anchorRef,
      Bool.false_eq_true, and_false, exists_false, or_self, not_false_eq_true]
  index := hindex

/-- **What either deletion of a note leaves.** Nothing of the note and of its
owner's state about it, and of every other note all it had; the note deleted
through its highlight leaves what `remove_note_block` does but for the note's
content index, of which the latter leaves no row. -/
theorem note_deleted (viewerId : Uuid) (s : NoteRows B R) :
    (∀ dossiers, ∀ block ∈ s.notes.rows, block.userId = viewerId →
      Gone viewerId block.id (removeNoteBlock dossiers viewerId block.id s) ∧
        (removeNoteBlock dossiers viewerId block.id s).index.Without (noteRef block.id) ∧
        Spares (dyingWith dossiers (noteRef block.id) s ++ s.index.refs (noteRef block.id)) block.id s
          (removeNoteBlock dossiers viewerId block.id s)) ∧
      ∀ env highlightId noteBlockId t block, firstNoteBlockForHighlight env viewerId highlightId s = .some block →
        deleteHighlightNote env viewerId highlightId noteBlockId s = .ok t →
        Gone viewerId block.id t ∧
          Spares (dyingWith (env.dossiers block.id) (noteRef block.id) s ++ s.index.refs (noteRef block.id)) block.id s t ∧
          removeNoteBlock (env.dossiers block.id) viewerId block.id s = t.deleteContentIndex (noteRef block.id) := by
  have hself : ∀ dossiers (ref : ResourceRef), ref ∈ dyingWith dossiers ref s := by simp [dyingWith]
  constructor
  · intro dossiers block hblock howner
    obtain ⟨hswept, hnotes, hindex, hanchors⟩ := swept_removeNoteBlock dossiers hblock howner
    refine ⟨gone_of_swept hswept (List.mem_append_left _ (hself _ _)) hnotes hanchors, ?_,
      spares_of_swept hswept hnotes hanchors ?_⟩
    · rw [hindex]
      exact without_delete _ _
    · rw [hindex, delete_delete]
  · intro env highlightId noteBlockId t block hfirst hdelete
    obtain ⟨hblock, howner⟩ := mem_of_firstNoteBlock hfirst
    obtain ⟨hswept, hnotes, hindex, hanchors⟩ := swept_finished (env.dossiers block.id) viewerId block.id s
    rw [deleteHighlightNote_eq hfirst hdelete]
    have hspares := spares_of_swept hswept hnotes hanchors (by rw [hindex])
    refine ⟨gone_of_swept hswept (hself _ _) hnotes hanchors, ?_, removeNoteBlock_eq _ hblock howner⟩
    have hless : ∀ r ∈ dyingWith (env.dossiers block.id) (noteRef block.id) s,
        r ∈ dyingWith (env.dossiers block.id) (noteRef block.id) s ++ s.index.refs (noteRef block.id) :=
      fun r hr => List.mem_append_left _ hr
    exact { hspares with
      edges := fun e he => hspares.edges e (he.mono hless)
      viewStates := fun v hsurface htarget hedge => hspares.viewStates v hsurface htarget
        fun id hid e he hkey => (hedge id hid e he hkey).mono hless }

/-! ## A Link note with a note at one end -/

/-- Note 10 of user 1, on highlight 30, and note 11, the Link note of a Link
between note 10 and page 20. -/
def samplePurged : NoteRows Unit Unit where
  notes := ⟨[⟨10, 1, ()⟩, ⟨11, 1, ()⟩], by decide⟩
  versions := .empty
  mutations := .empty
  anchors := .empty
  index := { blocks := [], chunks := [], spans := [], parts := [], embeddings := [], states := [noteRef 10] }
  edges := ⟨⟨[
    { id := 1, userId := 1, source := ⟨.highlight, 30⟩, target := noteRef 10, kind := .context, origin := .highlightNote },
    { id := 2, userId := 1, source := noteRef 11, target := noteRef 10, kind := .context, origin := .linkNote },
    { id := 3, userId := 1, source := noteRef 11, target := ⟨.page, 20⟩, kind := .context, origin := .linkNote }], by decide⟩,
    by decide, by decide⟩
  viewStates := .empty
  snapshots := []
  webResults := []

def sampleHighlightEnv : HighlightEnv := ⟨true, fun _ => [], fun _ => 0⟩

/-- The deletion of the highlight's note, or the rows as they are. -/
def sampleDeleted : NoteRows Unit Unit :=
  match deleteHighlightNote sampleHighlightEnv 1 30 .none samplePurged with
  | .ok t => t
  | .error _ => samplePurged

theorem sampleDeleted_ok : deleteHighlightNote sampleHighlightEnv 1 30 .none samplePurged = .ok sampleDeleted := by
  have hok : (match deleteHighlightNote sampleHighlightEnv 1 30 .none samplePurged with
    | .ok _ => true
    | .error _ => false) = true := by decide +kernel
  unfold sampleDeleted
  revert hok
  cases deleteHighlightNote sampleHighlightEnv 1 30 .none samplePurged <;> simp

theorem note_deleted_sample :
    Gone 1 10 (removeNoteBlock [] 1 10 samplePurged) ∧ Gone 1 10 sampleDeleted ∧
      removeNoteBlock [] 1 10 samplePurged = sampleDeleted.deleteContentIndex (noteRef 10) := by
  have hnote : (⟨10, 1, ()⟩ : NoteBlock Unit) ∈ samplePurged.notes.rows := by decide
  have hfirst : firstNoteBlockForHighlight sampleHighlightEnv 1 30 samplePurged = .some ⟨10, 1, ()⟩ := by decide +kernel
  have hremove := (note_deleted 1 samplePurged).1 [] ⟨10, 1, ()⟩ hnote rfl
  have hdelete := (note_deleted 1 samplePurged).2 sampleHighlightEnv 30 .none sampleDeleted ⟨10, 1, ()⟩ hfirst sampleDeleted_ok
  exact ⟨hremove.1, hdelete.1, hdelete.2.2⟩

/-- Deleted through its highlight a note keeps its content index, and either
way the Link note of a Link to it loses its edge to the other end. -/
theorem index_kept_and_motif_taken :
    (∃ t, deleteHighlightNote sampleHighlightEnv 1 30 .none samplePurged = .ok t ∧ noteRef 10 ∈ t.index.states) ∧
      ∃ e ∈ samplePurged.edges.rows, e.source = noteRef 11 ∧ e.target = ⟨.page, 20⟩ ∧
        e ∉ (removeNoteBlock [] 1 10 samplePurged).edges.rows ∧ e ∉ sampleDeleted.edges.rows := by
  have hindex : noteRef 10 ∈ sampleDeleted.index.states := by decide +kernel
  refine ⟨⟨sampleDeleted, sampleDeleted_ok, hindex⟩, ?_⟩
  decide +kernel

end Nexus.Notes
