/-
What goes with a deleted resource: `resource_graph/cleanup.py`, the deletion of
an owner's passage anchors and of its content index.

Bare edges die with either endpoint, cited ones with their source, and a Link
note's edges all go when one of its targets does (`purgeEdges`). View states go
before the edge they belong to. Deleting one set of resources and then another
deletes their union's edges (`purgeEdges_append`), so what several cleanups
leave is told by one set of dead resources.

`message_retrievals` is kept as the web results its rows name; its spans, which
a deleted index clears there, nothing here reads.
-/
import Nexus.Surfaces.Commands

namespace Nexus.Notes
open Relational Graph Surfaces Mutations

/-! ## Tables -/

/-- A row of `resource_view_states`. -/
structure ResourceViewState where
  id : Uuid
  userId : Uuid
  surface : ResourceRef
  edgeId : Option Uuid
  target : Option ResourceRef
  deriving DecidableEq, Repr

/-- A row of `passage_anchors`. -/
structure PassageAnchor where
  id : Uuid
  userId : Uuid
  owner : ResourceRef
  deriving DecidableEq, Repr

def PassageAnchor.ref (anchor : PassageAnchor) : ResourceRef := ⟨.passageAnchor, anchor.id⟩

/-- A row of `content_blocks`, `content_chunks` or `evidence_spans`; the kinds
of an `IndexOwner` are schemes. -/
structure IndexRow where
  id : Uuid
  owner : ResourceRef
  deriving DecidableEq, Repr

/-- A row of `content_chunk_parts` or `content_embeddings`. -/
structure ChunkRow where
  id : Uuid
  chunkId : Uuid
  deriving DecidableEq, Repr

structure ContentIndex where
  blocks : List IndexRow
  chunks : List IndexRow
  spans : List IndexRow
  parts : List ChunkRow
  embeddings : List ChunkRow
  /-- the owners `content_index_states` has a row of -/
  states : List ResourceRef

/-- The graph and what hangs on its edges. -/
structure GraphRows where
  edges : Edges
  viewStates : Table ResourceViewState ResourceViewState.id
  /-- `resource_external_snapshots` -/
  snapshots : List Uuid
  /-- the `source_id` of the retrievals that are web results -/
  webResults : List Uuid

/-! ## Edges -/

/-- What `_delete_link_note_motifs_for_targets` deletes: every Link-note edge of
a note that has one to a dead resource. -/
def inDeadMotif (refs : List ResourceRef) (s : Edges) (e : ResourceEdge) : Bool :=
  e.origin == .linkNote && s.rows.any fun f => f.origin == .linkNote && decide (f.target ∈ refs) && f.source == e.source

def bareTouches (refs : List ResourceRef) (e : ResourceEdge) : Bool :=
  e.ordinal.isNone && (decide (e.source ∈ refs) || decide (e.target ∈ refs))

def citedFrom (refs : List ResourceRef) (e : ResourceEdge) : Bool := e.ordinal.isSome && decide (e.source ∈ refs)

/-- The edges of `delete_edges_for_deleted_resources`. -/
def purgeEdges (refs : List ResourceRef) (s : Edges) : Edges :=
  let s := s.deleteWhere (inDeadMotif refs s)
  let s := s.deleteWhere (bareTouches refs)
  s.deleteWhere (citedFrom refs)

/-- One `DELETE FROM resource_edges`, and the one of view states before it. -/
def GraphRows.deleteEdges (p : ResourceEdge → Bool) (rows : GraphRows) : GraphRows :=
  { rows with
    viewStates := rows.viewStates.deleteWhere fun v =>
      v.edgeId.any fun id => rows.edges.rows.any fun e => e.id == id && p e
    edges := rows.edges.deleteWhere p }

def GraphRows.deleteOrphanedExternalSnapshots (ids : List Uuid) (rows : GraphRows) : GraphRows :=
  { rows with
    snapshots := rows.snapshots.filter fun id => !decide (id ∈ ids) ||
      (rows.edges.rows.any fun e => e.target == ⟨.externalSnapshot, id⟩) || decide (id ∈ rows.webResults) }

def GraphRows.deleteEdgesForDeletedResources (refs : List ResourceRef) (rows : GraphRows) : GraphRows :=
  let rows := rows.deleteEdges (inDeadMotif refs rows.edges)
  let rows := rows.deleteEdges (bareTouches refs)
  let cited := rows.edges.rows.filter (citedFrom refs)
  let rows := rows.deleteEdges (citedFrom refs)
  rows.deleteOrphanedExternalSnapshots
    ((cited.filter fun e => e.target.scheme == .externalSnapshot).map fun e => e.target.id)

def GraphRows.deleteEdgesForDeletedResource (ref : ResourceRef) (rows : GraphRows) : GraphRows :=
  rows.deleteEdgesForDeletedResources [ref]

/-! ## What a purge leaves -/

/-- The edges that go with the dead resources. -/
def doomed (refs : List ResourceRef) (s : Edges) (e : ResourceEdge) : Bool :=
  inDeadMotif refs s e || bareTouches refs e || citedFrom refs e

theorem rows_purgeEdges (refs : List ResourceRef) (s : Edges) :
    (purgeEdges refs s).rows = s.rows.filter fun e => !doomed refs s e := by
  simp only [purgeEdges, Store.rows_deleteWhere, List.filter_filter]
  refine List.filter_congr fun e _ => ?_
  simp only [doomed, Bool.not_or, Bool.and_comm]

theorem mem_purgeEdges {refs : List ResourceRef} {s : Edges} {e : ResourceEdge} :
    e ∈ (purgeEdges refs s).rows ↔ e ∈ s.rows ∧ doomed refs s e = false := by
  rw [rows_purgeEdges, List.mem_filter, Bool.not_eq_true']

theorem inDeadMotif_eq_true {refs : List ResourceRef} {s : Edges} {e : ResourceEdge} :
    inDeadMotif refs s e = true ↔
      e.origin = .linkNote ∧ ∃ f ∈ s.rows, f.origin = .linkNote ∧ f.target ∈ refs ∧ f.source = e.source := by
  simp [inDeadMotif, and_assoc]

theorem bareTouches_eq_true {refs : List ResourceRef} {e : ResourceEdge} :
    bareTouches refs e = true ↔ e.ordinal = .none ∧ (e.source ∈ refs ∨ e.target ∈ refs) := by
  simp [bareTouches]

theorem citedFrom_eq_true {refs : List ResourceRef} {e : ResourceEdge} :
    citedFrom refs e = true ↔ e.ordinal.isSome = true ∧ e.source ∈ refs := by
  simp [citedFrom]

theorem doomed_eq_true {refs : List ResourceRef} {s : Edges} {e : ResourceEdge} :
    doomed refs s e = true ↔ inDeadMotif refs s e = true ∨ bareTouches refs e = true ∨ citedFrom refs e = true := by
  simp [doomed, or_assoc]

theorem ordinal_of_linkNote {s : Edges} {e : ResourceEdge} (he : e ∈ s.rows) (ho : e.origin = .linkNote) :
    e.ordinal = .none := by
  have hchecks : e.checks = true := s.checked e he
  cases hordinal : e.ordinal with
  | none => rfl
  | some n => simp [EdgeCreate.checks, ho, hordinal] at hchecks

theorem doomed_of_linkNote {refs : List ResourceRef} {s : Edges} {e f : ResourceEdge} (he : e ∈ s.rows)
    (hf : f ∈ s.rows) (heo : e.origin = .linkNote) (hfo : f.origin = .linkNote) (hsource : f.source = e.source)
    (h : doomed refs s f = true) : doomed refs s e = true := by
  rw [doomed_eq_true] at h ⊢
  rcases h with h | h | h
  · obtain ⟨-, g, hg, hgo, htarget, hgs⟩ := inDeadMotif_eq_true.1 h
    exact .inl (inDeadMotif_eq_true.2 ⟨heo, g, hg, hgo, htarget, hgs.trans hsource⟩)
  · obtain ⟨-, h | h⟩ := bareTouches_eq_true.1 h
    · exact .inr (.inl (bareTouches_eq_true.2 ⟨ordinal_of_linkNote he heo, .inl (hsource ▸ h)⟩))
    · exact .inl (inDeadMotif_eq_true.2 ⟨heo, f, hf, hfo, h, hsource⟩)
  · have hordinal := (citedFrom_eq_true.1 h).1
    rw [ordinal_of_linkNote hf hfo] at hordinal
    cases hordinal

theorem doomed_append {refs refs' : List ResourceRef} {s : Edges} {e : ResourceEdge} (he : e ∈ s.rows) :
    doomed (refs ++ refs') s e = (doomed refs s e || doomed refs' (purgeEdges refs s) e) := by
  rw [Bool.eq_iff_iff, Bool.or_eq_true]
  constructor
  · intro h
    rcases doomed_eq_true.1 h with h | h | h
    · obtain ⟨ho, f, hf, hfo, htarget, hsource⟩ := inDeadMotif_eq_true.1 h
      by_cases hgone : doomed refs s f = true
      · exact .inl (doomed_of_linkNote he hf ho hfo hsource hgone)
      · have hkept : f ∈ (purgeEdges refs s).rows := mem_purgeEdges.2 ⟨hf, by simpa using hgone⟩
        rcases List.mem_append.1 htarget with htarget | htarget
        · exact .inl (doomed_eq_true.2 (.inl (inDeadMotif_eq_true.2 ⟨ho, f, hf, hfo, htarget, hsource⟩)))
        · exact .inr (doomed_eq_true.2 (.inl (inDeadMotif_eq_true.2 ⟨ho, f, hkept, hfo, htarget, hsource⟩)))
    · obtain ⟨hordinal, h⟩ := bareTouches_eq_true.1 h
      simp only [List.mem_append] at h
      have hbare : ∀ {rs : List ResourceRef} {u : Edges}, e.source ∈ rs ∨ e.target ∈ rs → doomed rs u e = true :=
        fun hr => doomed_eq_true.2 (.inr (.inl (bareTouches_eq_true.2 ⟨hordinal, hr⟩)))
      rcases h with (h | h) | (h | h)
      · exact .inl (hbare (.inl h))
      · exact .inr (hbare (.inl h))
      · exact .inl (hbare (.inr h))
      · exact .inr (hbare (.inr h))
    · obtain ⟨hordinal, h⟩ := citedFrom_eq_true.1 h
      rcases List.mem_append.1 h with h | h
      · exact .inl (doomed_eq_true.2 (.inr (.inr (citedFrom_eq_true.2 ⟨hordinal, h⟩))))
      · exact .inr (doomed_eq_true.2 (.inr (.inr (citedFrom_eq_true.2 ⟨hordinal, h⟩))))
  · have hmore : ∀ {rs : List ResourceRef} {u : Edges}, (∀ f ∈ u.rows, f ∈ s.rows) → (∀ r ∈ rs, r ∈ refs ++ refs') →
        doomed rs u e = true → doomed (refs ++ refs') s e = true := by
      intro rs u hu hr h
      rw [doomed_eq_true] at h ⊢
      rcases h with h | h | h
      · obtain ⟨ho, f, hf, hfo, htarget, hsource⟩ := inDeadMotif_eq_true.1 h
        exact .inl (inDeadMotif_eq_true.2 ⟨ho, f, hu f hf, hfo, hr _ htarget, hsource⟩)
      · obtain ⟨hordinal, h⟩ := bareTouches_eq_true.1 h
        exact .inr (.inl (bareTouches_eq_true.2 ⟨hordinal, h.imp (hr _) (hr _)⟩))
      · obtain ⟨hordinal, h⟩ := citedFrom_eq_true.1 h
        exact .inr (.inr (citedFrom_eq_true.2 ⟨hordinal, hr _ h⟩))
    rintro (h | h)
    · exact hmore (fun f hf => hf) (fun r hr => List.mem_append_left _ hr) h
    · exact hmore (fun f hf => (mem_purgeEdges.1 hf).1) (fun r hr => List.mem_append_right _ hr) h

theorem purgeEdges_append (refs refs' : List ResourceRef) (s : Edges) :
    purgeEdges refs' (purgeEdges refs s) = purgeEdges (refs ++ refs') s := by
  refine Store.ext ?_
  rw [rows_purgeEdges, rows_purgeEdges, rows_purgeEdges, List.filter_filter]
  refine List.filter_congr fun e he => ?_
  rw [doomed_append he, Bool.not_or, Bool.and_comm]

/-! ## View states of edges -/

/-- The view state belongs to an edge that goes. -/
def hangsOn (p : ResourceEdge → Bool) (s : Edges) (v : ResourceViewState) : Bool :=
  v.edgeId.any fun id => s.rows.any fun e => e.id == id && p e

theorem hangsOn_eq_true {p : ResourceEdge → Bool} {s : Edges} {v : ResourceViewState} :
    hangsOn p s v = true ↔ ∃ id, v.edgeId = .some id ∧ ∃ e ∈ s.rows, e.id = id ∧ p e = true := by
  unfold hangsOn
  cases v.edgeId with
  | none => simp
  | some id =>
    simp only [Option.any_some, List.any_eq_true, Bool.and_eq_true, beq_iff_eq, Option.some.injEq, exists_eq_left']

theorem hangsOn_or {p q : ResourceEdge → Bool} {s t : Edges} (ht : ∀ e, e ∈ t.rows ↔ e ∈ s.rows ∧ p e = false)
    {r : ResourceEdge → Bool} (hr : ∀ e ∈ s.rows, r e = (p e || q e)) (v : ResourceViewState) :
    hangsOn r s v = (hangsOn p s v || hangsOn q t v) := by
  rw [Bool.eq_iff_iff, Bool.or_eq_true]
  simp only [hangsOn_eq_true]
  constructor
  · rintro ⟨id, hid, e, he, hkey, hgone⟩
    rw [hr e he, Bool.or_eq_true] at hgone
    cases hp : p e with
    | true => exact .inl ⟨id, hid, e, he, hkey, hp⟩
    | false => exact .inr ⟨id, hid, e, (ht e).2 ⟨he, hp⟩, hkey, by simpa [hp] using hgone⟩
  · rintro (⟨id, hid, e, he, hkey, hgone⟩ | ⟨id, hid, e, he, hkey, hgone⟩)
    · exact ⟨id, hid, e, he, hkey, by rw [hr e he, hgone, Bool.true_or]⟩
    · have hs := ((ht e).1 he).1
      exact ⟨id, hid, e, hs, hkey, by rw [hr e hs, hgone, Bool.or_true]⟩

/-- What a cleanup leaves of the graph when these resources died, besides the
view states of `own`. -/
structure Cleaned (refs : List ResourceRef) (own : ResourceViewState → Bool) (s t : GraphRows) : Prop where
  edges : t.edges = purgeEdges refs s.edges
  viewStates : t.viewStates.rows = s.viewStates.rows.filter fun v => !(hangsOn (doomed refs s.edges) s.edges v || own v)

theorem doomed_nil (s : Edges) (e : ResourceEdge) : doomed [] s e = false := by
  simp [doomed, inDeadMotif, bareTouches, citedFrom]

theorem Cleaned.refl (s : GraphRows) : Cleaned [] (fun _ => false) s s where
  edges := by
    refine Store.ext ?_
    rw [rows_purgeEdges]
    simp [doomed_nil]
  viewStates := by
    symm
    refine List.filter_eq_self.2 fun v _ => ?_
    have hnone : hangsOn (doomed [] s.edges) s.edges v ≠ true := by
      rw [Ne, hangsOn_eq_true]
      simp [doomed_nil]
    simpa using hnone

theorem Cleaned.trans {refs refs' : List ResourceRef} {own own' : ResourceViewState → Bool} {s t u : GraphRows}
    (h : Cleaned refs own s t) (h' : Cleaned refs' own' t u) :
    Cleaned (refs ++ refs') (fun v => own v || own' v) s u where
  edges := by rw [h'.edges, h.edges, purgeEdges_append]
  viewStates := by
    rw [h'.viewStates, h.viewStates, List.filter_filter]
    refine List.filter_congr fun v _ => ?_
    have hmem : ∀ e, e ∈ (purgeEdges refs s.edges).rows ↔ e ∈ s.edges.rows ∧ doomed refs s.edges e = false :=
      fun e => mem_purgeEdges
    have hboth : ∀ e ∈ s.edges.rows, doomed (refs ++ refs') s.edges e =
        (doomed refs s.edges e || doomed refs' (purgeEdges refs s.edges) e) := fun e he => doomed_append he
    have hsplit := hangsOn_or hmem hboth v
    rw [hsplit, h.edges]
    simp only [Bool.not_or]
    ac_rfl

theorem Cleaned.of_own {own : ResourceViewState → Bool} {s : GraphRows} {viewStates}
    (h : viewStates = s.viewStates.deleteWhere own) : Cleaned [] own s { s with viewStates := viewStates } where
  edges := (Cleaned.refl s).edges
  viewStates := by
    have hrefl := (Cleaned.refl s).viewStates
    subst h
    show (s.viewStates.rows.filter fun v => !own v) = _
    refine List.filter_congr fun v hv => ?_
    rw [hrefl, List.mem_filter] at hv
    have hnone := hv.2
    simp only [Bool.or_false, Bool.not_eq_true'] at hnone
    rw [hnone, Bool.false_or]

theorem deleteEdges_deleteEdges (rows : GraphRows) (p q : ResourceEdge → Bool) :
    (rows.deleteEdges p).deleteEdges q = rows.deleteEdges fun e => p e || q e := by
  have hedges : ∀ e, e ∈ (rows.edges.deleteWhere p).rows ↔ e ∈ rows.edges.rows ∧ p e = false := fun e => Store.mem_deleteWhere
  have hstates : (rows.viewStates.deleteWhere (hangsOn p rows.edges)).deleteWhere (hangsOn q (rows.edges.deleteWhere p)) =
      rows.viewStates.deleteWhere (hangsOn (fun e => p e || q e) rows.edges) := by
    refine Table.ext ?_
    show List.filter _ (List.filter _ _) = List.filter _ _
    rw [List.filter_filter]
    refine List.filter_congr fun v _ => ?_
    rw [hangsOn_or hedges (fun _ _ => rfl) v, Bool.not_or, Bool.and_comm]
  have hrest : (rows.edges.deleteWhere p).deleteWhere q = rows.edges.deleteWhere fun e => p e || q e := by
    refine Store.ext ?_
    rw [Store.rows_deleteWhere, Store.rows_deleteWhere, Store.rows_deleteWhere, List.filter_filter]
    exact List.filter_congr fun e _ => by rw [Bool.not_or, Bool.and_comm]
  simp only [GraphRows.deleteEdges]
  rw [hrest]
  congr 1

theorem cleaned_deleteEdgesForDeletedResources (refs : List ResourceRef) (rows : GraphRows) :
    Cleaned refs (fun _ => false) rows (rows.deleteEdgesForDeletedResources refs) := by
  have hall : ((rows.deleteEdges (inDeadMotif refs rows.edges)).deleteEdges (bareTouches refs)).deleteEdges (citedFrom refs) =
      rows.deleteEdges (doomed refs rows.edges) := by
    rw [deleteEdges_deleteEdges, deleteEdges_deleteEdges]
    simp only [← Bool.or_assoc]
    rfl
  refine ⟨rfl, ?_⟩
  have hstates := congrArg (fun r : GraphRows => r.viewStates.rows) hall
  simp only [Bool.or_false]
  exact hstates

end Nexus.Notes
