/-
The two forms of the graph cleanup in `resource_graph/cleanup.py`: for one
deleted resource, and for a list of them at once.

Edges and view states are told by the set of dead resources (`Cleaned`), so the
order does not matter to them. A snapshot is looked at when a cited edge to it
goes, and never when a bare one does; so the two forms agree when no bare edge
ends at a snapshot. No writer of edges lets one: an external snapshot can be
neither attached, nor linked, nor referred to by a note.
-/
import Nexus.Notes.Cleanup

namespace Nexus.Notes
open Relational Graph Surfaces Mutations

/-! ## The rows that are left -/

def targets (s : Edges) (id : Uuid) : Bool := s.rows.any fun e => e.target == ⟨.externalSnapshot, id⟩

/-- A citation of the snapshot goes with its source. -/
def losesCitation (refs : List ResourceRef) (s : Edges) (id : Uuid) : Bool :=
  s.rows.any fun e => citedFrom refs e && e.target == ⟨.externalSnapshot, id⟩

def keepsSnapshot (refs : List ResourceRef) (rows : GraphRows) (id : Uuid) : Bool :=
  !losesCitation refs rows.edges id || targets (purgeEdges refs rows.edges) id || decide (id ∈ rows.webResults)

/-- No ordinal-less edge has an external snapshot for an endpoint. -/
def NoBareSnapshotEdge (s : Edges) : Prop :=
  ∀ e ∈ s.rows, e.ordinal = .none → e.source.scheme ≠ .externalSnapshot ∧ e.target.scheme ≠ .externalSnapshot

section purged
variable {refs refs' : List ResourceRef} {s : Edges} {rows : GraphRows} {id : Uuid}

theorem targets_eq_true : targets s id = true ↔ ∃ e ∈ s.rows, e.target = ⟨.externalSnapshot, id⟩ := by
  simp [targets]

theorem losesCitation_eq_true :
    losesCitation refs s id = true ↔
      ∃ e ∈ s.rows, (e.ordinal.isSome = true ∧ e.source ∈ refs) ∧ e.target = ⟨.externalSnapshot, id⟩ := by
  simp only [losesCitation, List.any_eq_true, Bool.and_eq_true, citedFrom_eq_true, beq_iff_eq]

theorem not_doomed_before (refs : List ResourceRef) {e : ResourceEdge} (he : e ∈ s.rows) (h : e.ordinal.isSome = true) :
    inDeadMotif refs s e = false ∧ bareTouches refs e = false := by
  constructor
  · refine Bool.eq_false_iff.2 fun hmotif => ?_
    rw [ordinal_of_linkNote he (inDeadMotif_eq_true.1 hmotif).1] at h
    cases h
  · refine Bool.eq_false_iff.2 fun hbare => ?_
    rw [(bareTouches_eq_true.1 hbare).1] at h
    cases h

theorem deleteEdgesForDeletedResources_eq (refs : List ResourceRef) (rows : GraphRows) :
    rows.deleteEdgesForDeletedResources refs =
      { edges := purgeEdges refs rows.edges
        viewStates := rows.viewStates.deleteWhere (hangsOn (doomed refs rows.edges) rows.edges)
        snapshots := rows.snapshots.filter (keepsSnapshot refs rows)
        webResults := rows.webResults } := by
  have hcleaned := cleaned_deleteEdgesForDeletedResources refs rows
  have hstates : (rows.deleteEdgesForDeletedResources refs).viewStates =
      rows.viewStates.deleteWhere (hangsOn (doomed refs rows.edges) rows.edges) := by
    refine Table.ext ?_
    have hrows := hcleaned.viewStates
    simp only [Bool.or_false] at hrows
    exact hrows
  have hcandidates : ∀ id,
      id ∈ ((((rows.deleteEdges (inDeadMotif refs rows.edges)).deleteEdges (bareTouches refs)).edges.rows.filter
        (citedFrom refs)).filter fun e => e.target.scheme == .externalSnapshot).map (fun e => e.target.id) ↔
        losesCitation refs rows.edges id = true := by
    intro id
    simp only [List.mem_map, List.mem_filter, GraphRows.deleteEdges, Store.mem_deleteWhere, beq_iff_eq,
      losesCitation_eq_true, citedFrom_eq_true]
    constructor
    · rintro ⟨e, ⟨⟨⟨⟨he, -⟩, -⟩, hcited⟩, hscheme⟩, rfl⟩
      exact ⟨e, he, hcited, by rw [← hscheme]⟩
    · rintro ⟨e, he, hcited, htarget⟩
      obtain ⟨hmotif, hbare⟩ := not_doomed_before refs he hcited.1
      exact ⟨e, ⟨⟨⟨⟨he, hmotif⟩, hbare⟩, hcited⟩, by rw [htarget]⟩, by rw [htarget]⟩
  have hsnapshots : (rows.deleteEdgesForDeletedResources refs).snapshots =
      rows.snapshots.filter (keepsSnapshot refs rows) := by
    refine List.filter_congr fun id _ => ?_
    rw [Bool.eq_iff_iff]
    simp only [Bool.or_eq_true, Bool.not_eq_true', decide_eq_false_iff_not, keepsSnapshot, hcandidates,
      Bool.not_eq_true, decide_eq_true_eq]
    rfl
  rw [← hstates, ← hsnapshots]
  rfl

/-! ## Deleting in turn -/

theorem citedFrom_of_doomed (hbare : NoBareSnapshotEdge s) {e : ResourceEdge} (he : e ∈ s.rows)
    (htarget : e.target = ⟨.externalSnapshot, id⟩) (h : doomed refs s e = true) :
    e.ordinal.isSome = true ∧ e.source ∈ refs := by
  have hordinal : e.ordinal.isSome = true := by
    by_contra hnone
    have := (hbare e he (by simpa using hnone)).2
    rw [htarget] at this
    exact this rfl
  obtain ⟨hmotif, hbare'⟩ := not_doomed_before refs he hordinal
  rcases doomed_eq_true.1 h with h | h | h
  · rw [hmotif] at h
    cases h
  · rw [hbare'] at h
    cases h
  · exact citedFrom_eq_true.1 h

/-- `l₁` and `l₂` say that the first and the second cleanup would take a citation, `l₂'` that the second one does, `t`
that an edge is there between the two, `t'` that one is in the end, `w` that a retrieval names the snapshot. -/
theorem keeps_and_keeps {l₁ l₂ l₂' t t' w : Prop} (hlater : l₂' → l₂) (hearlier : l₂ → l₂' ∨ l₁)
    (hbetween : t → t' ∨ l₂') (hleft : t' → t) :
    ((¬l₁ ∨ t) ∨ w) ∧ ((¬l₂' ∨ t') ∨ w) ↔ (¬(l₁ ∨ l₂) ∨ t') ∨ w := by
  by_cases hw : w
  · simp [hw]
  · by_cases ht : t'
    · simp [ht, hleft ht]
    · by_cases hl : l₂'
      · simp [hw, ht, hl, hlater hl]
      · have hnone : ¬t := fun h => (hbetween h).elim ht hl
        have hiff : ¬l₁ ↔ ¬(l₁ ∨ l₂) := not_congr ⟨.inl, fun h => h.elim id fun h => (hearlier h).resolve_left hl⟩
        simp only [hw, ht, hl, hnone, or_false, not_false_iff, and_true]
        exact hiff

theorem keepsSnapshot_append (hbare : NoBareSnapshotEdge rows.edges) (refs refs' : List ResourceRef) (id : Uuid) :
    (keepsSnapshot refs rows id && keepsSnapshot refs' (rows.deleteEdgesForDeletedResources refs) id) =
      keepsSnapshot (refs ++ refs') rows id := by
  have hfirst : ∀ e ∈ (purgeEdges refs rows.edges).rows, e ∈ rows.edges.rows := fun e he => (mem_purgeEdges.1 he).1
  have hlost : losesCitation (refs ++ refs') rows.edges id = true ↔
      losesCitation refs rows.edges id = true ∨ losesCitation refs' rows.edges id = true := by
    simp only [losesCitation_eq_true, List.mem_append]
    constructor
    · rintro ⟨e, he, ⟨hordinal, hsource | hsource⟩, htarget⟩
      · exact .inl ⟨e, he, ⟨hordinal, hsource⟩, htarget⟩
      · exact .inr ⟨e, he, ⟨hordinal, hsource⟩, htarget⟩
    · rintro (⟨e, he, ⟨hordinal, hsource⟩, htarget⟩ | ⟨e, he, ⟨hordinal, hsource⟩, htarget⟩)
      · exact ⟨e, he, ⟨hordinal, .inl hsource⟩, htarget⟩
      · exact ⟨e, he, ⟨hordinal, .inr hsource⟩, htarget⟩
  -- what the second cleanup loses was there before the first
  have hlater : losesCitation refs' (purgeEdges refs rows.edges) id = true → losesCitation refs' rows.edges id = true := by
    rw [losesCitation_eq_true, losesCitation_eq_true]
    exact fun ⟨e, he, h⟩ => ⟨e, hfirst e he, h⟩
  -- a citation that both would lose the first one takes
  have hearlier : losesCitation refs' rows.edges id = true →
      losesCitation refs' (purgeEdges refs rows.edges) id = true ∨ losesCitation refs rows.edges id = true := by
    rw [losesCitation_eq_true, losesCitation_eq_true, losesCitation_eq_true]
    rintro ⟨e, he, hcited, htarget⟩
    by_cases hgone : doomed refs rows.edges e = true
    · exact .inr ⟨e, he, citedFrom_of_doomed hbare he htarget hgone, htarget⟩
    · exact .inl ⟨e, mem_purgeEdges.2 ⟨he, by simpa using hgone⟩, hcited, htarget⟩
  -- an edge that is there between the two stays, or is a citation the second one takes
  have hbetween : targets (purgeEdges refs rows.edges) id = true →
      targets (purgeEdges (refs ++ refs') rows.edges) id = true ∨
        losesCitation refs' (purgeEdges refs rows.edges) id = true := by
    rw [targets_eq_true, targets_eq_true, losesCitation_eq_true]
    rintro ⟨e, he, htarget⟩
    by_cases hgone : doomed refs' (purgeEdges refs rows.edges) e = true
    · have hbare' : NoBareSnapshotEdge (purgeEdges refs rows.edges) := fun f hf => hbare f (hfirst f hf)
      exact .inr ⟨e, he, citedFrom_of_doomed hbare' he htarget hgone, htarget⟩
    · refine .inl ⟨e, ?_, htarget⟩
      rw [← purgeEdges_append]
      exact mem_purgeEdges.2 ⟨he, by simpa using hgone⟩
  have hleft : targets (purgeEdges (refs ++ refs') rows.edges) id = true →
      targets (purgeEdges refs rows.edges) id = true := by
    rw [← purgeEdges_append, targets_eq_true, targets_eq_true]
    exact fun ⟨e, he, htarget⟩ => ⟨e, (mem_purgeEdges.1 he).1, htarget⟩
  rw [deleteEdgesForDeletedResources_eq, Bool.eq_iff_iff]
  simp only [keepsSnapshot, Bool.and_eq_true, Bool.or_eq_true, Bool.not_eq_true', decide_eq_true_eq,
    ← Bool.not_eq_true, purgeEdges_append, hlost]
  exact keeps_and_keeps hlater hearlier hbetween hleft

theorem NoBareSnapshotEdge.deleted (hbare : NoBareSnapshotEdge rows.edges) (refs : List ResourceRef) :
    NoBareSnapshotEdge (rows.deleteEdgesForDeletedResources refs).edges := by
  rw [deleteEdgesForDeletedResources_eq]
  exact fun e he => hbare e (mem_purgeEdges.1 he).1

theorem deleteEdgesForDeletedResources_append (hbare : NoBareSnapshotEdge rows.edges) (refs refs' : List ResourceRef) :
    (rows.deleteEdgesForDeletedResources refs).deleteEdgesForDeletedResources refs' =
      rows.deleteEdgesForDeletedResources (refs ++ refs') := by
  have hmem : ∀ e, e ∈ (purgeEdges refs rows.edges).rows ↔ e ∈ rows.edges.rows ∧ doomed refs rows.edges e = false :=
    fun e => mem_purgeEdges
  have hkeeps := keepsSnapshot_append hbare refs refs'
  rw [deleteEdgesForDeletedResources_eq refs' (rows.deleteEdgesForDeletedResources refs)]
  have hstates : (rows.deleteEdgesForDeletedResources refs).viewStates.deleteWhere
      (hangsOn (doomed refs' (purgeEdges refs rows.edges)) (purgeEdges refs rows.edges)) =
        rows.viewStates.deleteWhere (hangsOn (doomed (refs ++ refs') rows.edges) rows.edges) := by
    rw [deleteEdgesForDeletedResources_eq]
    refine Table.ext ?_
    show List.filter _ (List.filter _ _) = List.filter _ _
    rw [List.filter_filter]
    refine List.filter_congr fun v _ => ?_
    rw [hangsOn_or hmem (fun e he => doomed_append he) v, Bool.not_or, Bool.and_comm]
  have hsnapshots : (rows.deleteEdgesForDeletedResources refs).snapshots.filter
      (keepsSnapshot refs' (rows.deleteEdgesForDeletedResources refs)) =
        rows.snapshots.filter (keepsSnapshot (refs ++ refs') rows) := by
    have hrows : (rows.deleteEdgesForDeletedResources refs).snapshots = rows.snapshots.filter (keepsSnapshot refs rows) := by
      rw [deleteEdgesForDeletedResources_eq]
    rw [hrows, List.filter_filter]
    exact List.filter_congr fun id _ => by rw [← hkeeps id, Bool.and_comm]
  have hedges : (rows.deleteEdgesForDeletedResources refs).edges = purgeEdges refs rows.edges := by
    rw [deleteEdgesForDeletedResources_eq]
  rw [hsnapshots, hedges, hstates, purgeEdges_append, deleteEdgesForDeletedResources_eq (refs ++ refs') rows]
  congr 1

theorem deleteEdgesForDeletedResources_nil (rows : GraphRows) : rows.deleteEdgesForDeletedResources [] = rows := by
  have hedges : purgeEdges [] rows.edges = rows.edges := (Cleaned.refl rows).edges.symm
  have hstates : rows.viewStates.deleteWhere (hangsOn (doomed [] rows.edges) rows.edges) = rows.viewStates := by
    refine Table.ext ?_
    have hrows := (Cleaned.refl rows).viewStates
    simp only [Bool.or_false] at hrows
    exact hrows.symm
  have hsnapshots : rows.snapshots.filter (keepsSnapshot [] rows) = rows.snapshots := by
    refine List.filter_eq_self.2 fun id _ => ?_
    simp [keepsSnapshot, losesCitation, citedFrom]
  rw [deleteEdgesForDeletedResources_eq, hedges, hstates, hsnapshots]

theorem deleteEdgesForDeletedResources_congr (h : ∀ r, r ∈ refs ↔ r ∈ refs') :
    rows.deleteEdgesForDeletedResources refs = rows.deleteEdgesForDeletedResources refs' := by
  have hmotif : inDeadMotif refs = inDeadMotif refs' := by
    funext s e
    simp only [inDeadMotif, h]
  have htouches : bareTouches refs = bareTouches refs' := by
    funext e
    simp only [bareTouches, h]
  have hcited : citedFrom refs = citedFrom refs' := by
    funext e
    simp only [citedFrom, h]
  simp only [GraphRows.deleteEdgesForDeletedResources, hmotif, htouches, hcited]

theorem foldl_deleteEdges (hbare : NoBareSnapshotEdge rows.edges) (order : List ResourceRef) :
    order.foldl (fun rows ref => rows.deleteEdgesForDeletedResource ref) rows =
      rows.deleteEdgesForDeletedResources order := by
  induction order generalizing rows with
  | nil => exact (deleteEdgesForDeletedResources_nil rows).symm
  | cons ref order ih =>
    rw [List.foldl_cons, GraphRows.deleteEdgesForDeletedResource, ih (hbare.deleted [ref]),
      deleteEdgesForDeletedResources_append hbare, List.singleton_append]

end purged

/-! ## What is left of the graph -/

/-- The cleanup deletes an edge to the snapshot. -/
def TouchesSnapshot (refs : List ResourceRef) (s : Edges) (id : Uuid) : Prop :=
  ∃ e ∈ s.rows, doomed refs s e = true ∧ (e.source = ⟨.externalSnapshot, id⟩ ∨ e.target = ⟨.externalSnapshot, id⟩)

/-- An edge or a retrieval refers to the snapshot. -/
def GraphRows.References (rows : GraphRows) (id : Uuid) : Prop :=
  (∃ e ∈ rows.edges.rows, e.source = ⟨.externalSnapshot, id⟩ ∨ e.target = ⟨.externalSnapshot, id⟩) ∨ id ∈ rows.webResults

/-- What the two rules promise of a cleanup. -/
structure FollowsRules (refs : List ResourceRef) (s t : GraphRows) : Prop where
  bare : ∀ e ∈ t.edges.rows, e.ordinal = .none → e.source ∉ refs ∧ e.target ∉ refs
  cited : ∀ e ∈ s.edges.rows, e.ordinal.isSome = true → e.source ∉ refs → e ∈ t.edges.rows
  linkNotes : ∀ e ∈ s.edges.rows, ∀ f ∈ s.edges.rows, e.origin = .linkNote → f.origin = .linkNote →
    e.source = f.source → (e ∈ t.edges.rows ↔ f ∈ t.edges.rows)
  snapshots : ∀ id ∈ s.snapshots, TouchesSnapshot refs s.edges id → (id ∈ t.snapshots ↔ t.References id)

section rules
variable {refs : List ResourceRef} {rows : GraphRows}

theorem citation_of_snapshot {s : Edges} (hbare : NoBareSnapshotEdge s) {e : ResourceEdge} (he : e ∈ s.rows) {id : Uuid}
    (h : e.source = ⟨.externalSnapshot, id⟩ ∨ e.target = ⟨.externalSnapshot, id⟩) :
    e.ordinal.isSome = true ∧ e.target = ⟨.externalSnapshot, id⟩ := by
  have hordinal : e.ordinal.isSome = true := by
    by_contra hnone
    obtain ⟨hsource, htarget⟩ := hbare e he (by simpa using hnone)
    rcases h with h | h
    · exact hsource (by rw [h])
    · exact htarget (by rw [h])
  refine ⟨hordinal, h.resolve_left fun hsource => ?_⟩
  have hchecks : e.checks = true := s.checked e he
  obtain ⟨n, hn⟩ := Option.isSome_iff_exists.1 hordinal
  cases horigin : e.origin <;> simp [EdgeCreate.checks, hn, horigin, hsource] at hchecks

theorem followsRules (hbare : NoBareSnapshotEdge rows.edges) (refs : List ResourceRef) :
    FollowsRules refs rows (rows.deleteEdgesForDeletedResources refs) := by
  rw [deleteEdgesForDeletedResources_eq]
  constructor
  · intro e he hordinal
    obtain ⟨-, hkept⟩ := mem_purgeEdges.1 he
    have htouches : ¬(e.source ∈ refs ∨ e.target ∈ refs) := fun h => by
      rw [doomed_eq_true.2 (.inr (.inl (bareTouches_eq_true.2 ⟨hordinal, h⟩)))] at hkept
      cases hkept
    exact not_or.1 htouches
  · intro e he hordinal hsource
    refine mem_purgeEdges.2 ⟨he, Bool.eq_false_iff.2 fun h => ?_⟩
    obtain ⟨hmotif, hbare'⟩ := not_doomed_before refs he hordinal
    rcases doomed_eq_true.1 h with h | h | h
    · rw [hmotif] at h
      cases h
    · rw [hbare'] at h
      cases h
    · exact hsource (citedFrom_eq_true.1 h).2
  · intro e he f hf heo hfo hsource
    have hsame : doomed refs rows.edges e = doomed refs rows.edges f := by
      rw [Bool.eq_iff_iff]
      exact ⟨doomed_of_linkNote hf he hfo heo hsource, doomed_of_linkNote he hf heo hfo hsource.symm⟩
    simp only [mem_purgeEdges, he, hf, hsame]
  · rintro id hid ⟨e, he, hdoomed, hend⟩
    obtain ⟨-, htarget⟩ := citation_of_snapshot hbare he hend
    have hlost : losesCitation refs rows.edges id = true :=
      losesCitation_eq_true.2 ⟨e, he, citedFrom_of_doomed hbare he htarget hdoomed, htarget⟩
    have htargets : targets (purgeEdges refs rows.edges) id = true ↔
        ∃ f ∈ (purgeEdges refs rows.edges).rows, f.source = ⟨.externalSnapshot, id⟩ ∨ f.target = ⟨.externalSnapshot, id⟩ := by
      rw [targets_eq_true]
      refine ⟨fun ⟨f, hf, h⟩ => ⟨f, hf, .inr h⟩, fun ⟨f, hf, h⟩ => ⟨f, hf, ?_⟩⟩
      exact (citation_of_snapshot hbare (mem_purgeEdges.1 hf).1 h).2
    simp only [List.mem_filter, keepsSnapshot, hlost, Bool.not_true, Bool.false_or, Bool.or_eq_true, decide_eq_true_eq,
      htargets, hid, true_and]
    rfl

/-- **The batched cleanup is the cleanup of one resource after the other**, in any order, and follows the two rules. -/
theorem batchedCleanup (hbare : NoBareSnapshotEdge rows.edges) (order : List ResourceRef) (h : ∀ r, r ∈ order ↔ r ∈ refs) :
    order.foldl (fun rows ref => rows.deleteEdgesForDeletedResource ref) rows = rows.deleteEdgesForDeletedResources refs ∧
      FollowsRules refs rows (rows.deleteEdgesForDeletedResources refs) :=
  ⟨(foldl_deleteEdges hbare order).trans (deleteEdgesForDeletedResources_congr h), followsRules hbare refs⟩

end rules

/-! ## A message and a document of one snapshot -/

/-- A message's citation of the snapshot. -/
def citedSnapshot : ResourceEdge where
  source := ⟨.message, 1⟩
  target := ⟨.externalSnapshot, 9⟩
  kind := .context
  origin := .citation
  ordinal := .some 1
  snapshot := .some { excerpt := .some ['e'] }
  id := 11
  userId := 100

/-- A link from a document to the same snapshot, which the table would take and no service makes. -/
def linkedSnapshot : ResourceEdge where
  source := ⟨.media, 2⟩
  target := ⟨.externalSnapshot, 9⟩
  kind := .context
  origin := .user
  id := 12
  userId := 100

def citedOnly : GraphRows := ⟨⟨⟨[citedSnapshot], by decide⟩, by decide, by decide⟩, ⟨[], by decide⟩, [9], []⟩

def citedAndLinked : GraphRows :=
  ⟨⟨⟨[citedSnapshot, linkedSnapshot], by decide⟩, by decide, by decide⟩, ⟨[], by decide⟩, [9], []⟩

theorem batchedCleanup_citedOnly :
    [⟨.media, 2⟩, ⟨.message, 1⟩].foldl (fun rows ref => GraphRows.deleteEdgesForDeletedResource ref rows) citedOnly =
        citedOnly.deleteEdgesForDeletedResources [⟨.message, 1⟩, ⟨.media, 2⟩] ∧
      FollowsRules [⟨.message, 1⟩, ⟨.media, 2⟩] citedOnly
        (citedOnly.deleteEdgesForDeletedResources [⟨.message, 1⟩, ⟨.media, 2⟩]) :=
  batchedCleanup (by intro e he; simp only [citedOnly, List.mem_singleton] at he; subst he; decide) _
    fun r => by simp [or_comm]

/-- With the link the message's deletion leaves the snapshot, and the document's does not look at it. -/
theorem bare_snapshot_left :
    ([⟨.message, 1⟩, ⟨.media, 2⟩].foldl (fun rows ref => GraphRows.deleteEdgesForDeletedResource ref rows)
        citedAndLinked).snapshots = [9] ∧
      (citedAndLinked.deleteEdgesForDeletedResources [⟨.message, 1⟩, ⟨.media, 2⟩]).snapshots = [] := by
  decide +kernel

end Nexus.Notes
