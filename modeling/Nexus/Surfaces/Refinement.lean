/-
A surface command is the list operation it names.

Whatever a command does on the way (a note written, a row inserted or deleted),
it ends in `writeOrder`, and what that leaves is said once (`SurfaceStep`): the
surface numbered in the new order, its version one up, every other surface as
it was. Each command then only shows that the rows it hands over are its list
operation on the rows it found.
-/
import Nexus.Surfaces.Commands
import Nexus.Graph.Renumbering

namespace Nexus.Surfaces
open Relational Mutations Graph Sequence Transition ExceptFacts

/-- An occurrence: its id and what it shows. -/
def occurrence (e : ResourceEdge) : Uuid × ResourceRef := (e.id, e.target)

section Spec

variable {B : Type}

/-- The list operation a command names, on the occurrences of the surface; a
new occurrence has the id `created`. -/
def SurfaceCommand.listOp (created : Uuid) (l : List (Uuid × ResourceRef)) :
    SurfaceCommand B → Option (List (Uuid × ResourceRef))
  | .insertNote noteId position _ => place Prod.fst l (created, noteRef noteId) position
  | .splitNote occurrenceId noteId _ _ => insertAfter Prod.fst occurrenceId (created, noteRef noteId) l
  | .insertResource targetRef position =>
    (parseResourceRef targetRef).bind fun target => place Prod.fst l (created, target) position
  | .moveOccurrence occurrenceId position => move Prod.fst l occurrenceId position
  | .removeOccurrence occurrenceId =>
    if occurrenceId ∈ l.map Prod.fst then .some (without Prod.fst l occurrenceId) else .none

/-- What a command adds to the surface. -/
def SurfaceCommand.target? : SurfaceCommand B → Option ResourceRef
  | .insertNote noteId _ _ => .some (noteRef noteId)
  | .splitNote _ noteId _ _ => .some (noteRef noteId)
  | .insertResource targetRef _ => parseResourceRef targetRef
  | .moveOccurrence _ _ => .none
  | .removeOccurrence _ => .none

def surfaceVersion (viewerId : Uuid) (source : ResourceRef) (rows : SurfaceRows B) : Nat :=
  Versions.versionOf rows.versions ⟨viewerId, source, .outgoingEdges⟩

/-- The surface went from `s` to the occurrences `l`, and nothing else that is
ordered changed. -/
structure SurfaceStep (coll : Collation) (viewerId : Uuid) (source : ResourceRef) (s t : SurfaceRows B)
    (l : List (Uuid × ResourceRef)) : Prop where
  /-- the rows of the surface, in the order of `l`, carry the numbers from 1 on -/
  numbered : ∃ rows : List ResourceEdge, rows.Perm (surfaceRows viewerId source t.edges) ∧ rows.map occurrence = l ∧
    ∀ i (hi : i < rows.length), rows[i].sourceOrderKey = .some (orderKey (i + 1))
  /-- an occurrence that stays keeps its row, the order key apart -/
  kept : ∀ e ∈ surfaceRows viewerId source s.edges, e.id ∈ l.map Prod.fst → ∃ key, e.setKey key ∈ t.edges.rows
  /-- the surface reads back as `l` while ten digits number it -/
  read_back : occurrences coll viewerId source t.edges = l ↔ l.length < 10 ^ 10
  version : surfaceVersion viewerId source t = surfaceVersion viewerId source s + 1
  elsewhere : ∀ v src, (v, src) ≠ (viewerId, source) → surfaceRows v src t.edges = surfaceRows v src s.edges ∧
    surfaceVersion v src t = surfaceVersion v src s

end Spec

/-! ## Versions -/

theorem ensureVersion_ok {key : LaneKey} {t t' : Versions} (h : ensureVersion key t = .ok t') (k : LaneKey) :
    Versions.versionOf t' k = Versions.versionOf t k := by
  unfold ensureVersion at h
  cases hfind : t.find? key with
  | some row =>
    rw [hfind] at h
    cases h
    rfl
  | none =>
    rw [hfind] at h
    simp only at h
    split at h
    · cases h
    rename_i u hinsert
    cases h
    unfold Versions.versionOf
    rw [Table.find?_insert? hinsert]
    by_cases hk : key = k
    · rw [if_pos hk, ← hk, hfind]
    · rw [if_neg hk]

theorem find?_ensureVersion {key : LaneKey} {t t' : Versions} (h : ensureVersion key t = .ok t') :
    ∃ row, t'.find? key = .some row := by
  unfold ensureVersion at h
  cases hfind : t.find? key with
  | some row =>
    rw [hfind] at h
    cases h
    exact ⟨row, hfind⟩
  | none =>
    rw [hfind] at h
    simp only at h
    split at h
    · cases h
    rename_i u hinsert
    cases h
    exact ⟨⟨key, 1⟩, by rw [Table.find?_insert? hinsert]; exact if_pos rfl⟩

theorem bumpVersion_ok {key : LaneKey} {t t' : Versions} (h : bumpVersion key t = .ok t') (k : LaneKey) :
    Versions.versionOf t' k = if k = key then Versions.versionOf t key + 1 else Versions.versionOf t k := by
  obtain ⟨u, hensure, h⟩ := bind_eq_ok.1 h
  obtain ⟨row, hrow⟩ := find?_ensureVersion hensure
  cases hpg : pgInteger (Versions.versionOf u key + 1) with
  | none =>
    rw [hpg] at h
    cases h
  | some version =>
    rw [hpg] at h
    cases h
    obtain ⟨-, hversion⟩ := pgInteger_eq_some.1 hpg
    rw [← ensureVersion_ok hensure k, ← ensureVersion_ok hensure key]
    unfold Versions.versionOf
    rw [Table.find?_updateWhere]
    by_cases hk : k = key
    · have hkey := (Table.find?_eq_some.1 hrow).2
      rw [if_pos hk, hk, hrow, Option.map_some, if_pos (beq_iff_eq.2 hkey), ← hversion, Versions.versionOf, hrow]
    · rw [if_neg hk]
      cases hfind : u.find? k with
      | none => rfl
      | some other =>
        have hother := (Table.find?_eq_some.1 hfind).2
        rw [Option.map_some, if_neg (by rw [hother, beq_iff_eq]; exact hk)]

/-! ## Notes -/

section Notes

variable {B : Type} [NoteBody B] [DecidableEq B] {w : GraphView} {newId : Nat → Uuid} {viewerId : Uuid}

omit [DecidableEq B] in
theorem surfaceRows_syncNoteBodyEdges {block : NoteBlock B} {s t : Edges}
    (h : syncNoteBodyEdges w newId viewerId block s = .ok t) (v : Uuid) (src : ResourceRef) :
    surfaceRows v src t = surfaceRows v src s := by
  refine filter_replaceEdgesForOrigin (fun row horigin => ?_) h
  simp [onSurface, EdgeCreate.isOrdered, horigin]

theorem upsertNoteBody_ok {blockId : Uuid} {body : B} {rows rows' : SurfaceRows B} {block : NoteBlock B}
    (h : upsertNoteBody w newId viewerId blockId body rows = .ok (rows', block)) :
    block.id = blockId ∧ (∀ v src, surfaceRows v src rows'.edges = surfaceRows v src rows.edges) ∧
      ∀ v src, surfaceVersion v src rows' = surfaceVersion v src rows := by
  unfold upsertNoteBody at h
  cases hfind : rows.notes.find? blockId with
  | none =>
    rw [hfind] at h
    simp only at h
    split at h
    · cases h
    obtain ⟨t₁, hbody, h⟩ := bind_eq_ok.1 h
    obtain ⟨t₂, hedges, h⟩ := bind_eq_ok.1 h
    obtain ⟨edges, hsync, h⟩ := bind_eq_ok.1 h
    cases h
    refine ⟨rfl, surfaceRows_syncNoteBodyEdges hsync, fun v src => ?_⟩
    exact (ensureVersion_ok hedges _).trans (ensureVersion_ok hbody _)
  | some found =>
    rw [hfind] at h
    obtain ⟨-, h⟩ := check_eq_ok.1 h
    have hid : found.id = blockId := (Table.find?_eq_some.1 hfind).2
    split at h
    · cases h
      exact ⟨hid, fun _ _ => rfl, fun _ _ => rfl⟩
    · obtain ⟨versions, hbump, h⟩ := bind_eq_ok.1 h
      obtain ⟨edges, hsync, h⟩ := bind_eq_ok.1 h
      cases h
      refine ⟨hid, surfaceRows_syncNoteBodyEdges hsync, fun v src => ?_⟩
      refine (bumpVersion_ok hbump _).trans (if_neg ?_)
      intro heq
      cases congrArg LaneKey.lane heq

end Notes

/-! ## Edits of a surface -/

section Edits

variable {B : Type} {coll : Collation} {w : GraphView} {viewerId : Uuid} {source target : ResourceRef}

theorem orderedEdges_congr {s t : Edges} (h : surfaceRows viewerId source t = surfaceRows viewerId source s) :
    orderedEdges coll viewerId source t = orderedEdges coll viewerId source s := by
  unfold orderedEdges
  rw [show t.rows.filter (onSurface viewerId source) = s.rows.filter (onSurface viewerId source) from h]

theorem insertOrderedTarget_ok {s t : Edges} {edge : ResourceEdge}
    (h : insertOrderedTarget coll w viewerId source target s = .ok (t, edge)) :
    edge.id = w.newEdgeId ∧ edge.target = target ∧ target ≠ source ∧
      target ∉ (orderedEdges coll viewerId source s).map (fun e => e.target) ∧
      surfaceRows viewerId source t = edge :: surfaceRows viewerId source s ∧
      ∀ v src, (v, src) ≠ (viewerId, source) → surfaceRows v src t = surfaceRows v src s := by
  obtain ⟨_, -, h⟩ := bind_eq_ok.1 h
  obtain ⟨-, h⟩ := check_eq_ok.1 h
  obtain ⟨_, -, h⟩ := bind_eq_ok.1 h
  obtain ⟨-, h⟩ := check_eq_ok.1 h
  obtain ⟨hself, h⟩ := check_eq_ok.1 h
  obtain ⟨hduplicate, h⟩ := check_eq_ok.1 h
  obtain ⟨hinsert, rfl⟩ := flushInsert_eq_ok.1 h
  have hrows := (Store.insert?_eq_some.1 hinsert).2
  refine ⟨rfl, rfl, Ne.symm hself, ?_, ?_, ?_⟩
  · intro hmem
    obtain ⟨e, he, htarget⟩ := List.mem_map.1 hmem
    exact hduplicate (List.any_eq_true.2 ⟨e, he, beq_iff_eq.2 htarget⟩)
  · rw [surfaceRows, hrows, List.filter_cons_of_pos (by simp [onSurface, EdgeCreate.isOrdered])]
  · intro v src hne
    have hout : ∀ e : ResourceEdge, e.userId = viewerId → e.source = source → ¬ onSurface v src e = true := by
      intro e hv hs hon
      simp only [onSurface, Bool.and_eq_true, beq_iff_eq] at hon
      exact hne (Prod.ext (hon.1.1.symm.trans hv) (hon.1.2.symm.trans hs))
    rw [surfaceRows, hrows, List.filter_cons_of_neg (hout _ rfl rfl)]

theorem insertionIndex_ok {edges : List ResourceEdge} {position : SurfacePosition} {index : Nat}
    (h : insertionIndex edges position = .ok index) (edge : ResourceEdge) :
    place ResourceEdge.id edges edge position = .some (edges.insertIdx index edge) := by
  cases position with
  | start =>
    cases h
    rfl
  | after occurrenceId =>
    unfold insertionIndex at h
    simp only at h
    split at h
    next i hfind =>
      cases h
      rw [place, insertAfter_eq_insertIdx, hfind]
      rfl
    next => cases h

theorem place_occurrences {edges : List ResourceEdge} {position : SurfacePosition} {index : Nat}
    (h : insertionIndex edges position = .ok index) (edge : ResourceEdge) :
    place Prod.fst (edges.map occurrence) (occurrence edge) position =
      .some ((edges.insertIdx index edge).map occurrence) := by
  have hplace : place Prod.fst (edges.map occurrence) (occurrence edge) position =
      (place ResourceEdge.id edges edge position).map (List.map occurrence) := place_map fun _ => rfl
  rw [hplace, insertionIndex_ok h edge, Option.map_some]

theorem mem_insertionIndex {edges : List ResourceEdge} {position : SurfacePosition} {index : Nat}
    {edge e : ResourceEdge} (h : insertionIndex edges position = .ok index) (he : e ∈ edges.insertIdx index edge) :
    e = edge ∨ e ∈ edges :=
  List.mem_cons.1 ((place_perm (insertionIndex_ok h edge)).mem_iff.1 he)

/-- **What `writeOrder` leaves**, from the state `u` it is called in; `s` is the
state the command found. -/
theorem SurfaceStep.of_writeOrder {s u t : SurfaceRows B} {edges : List ResourceEdge}
    (h : writeOrder coll viewerId source edges u = .ok t) (hrows : ∀ e ∈ edges, e ∈ u.edges.rows)
    (hkept : ∀ e ∈ surfaceRows viewerId source s.edges, e.id ∈ edges.map ResourceEdge.id →
      e ∈ surfaceRows viewerId source u.edges)
    (hversion : ∀ v src, surfaceVersion v src u = surfaceVersion v src s)
    (helsewhere : ∀ v src, (v, src) ≠ (viewerId, source) → surfaceRows v src u.edges = surfaceRows v src s.edges) :
    SurfaceStep coll viewerId source s t (edges.map occurrence) := by
  obtain ⟨reordered, hreorder, h⟩ := bind_eq_ok.1 h
  obtain ⟨versions, hbump, h⟩ := bind_eq_ok.1 h
  cases h
  obtain ⟨hnodup, -, hnumbered, hread⟩ := orderedEdges_renumbered hrows hreorder
  obtain ⟨-, hkeys⟩ := reorderOrderedEdges_ok hreorder
  have hocc : (Graph.numbered edges).map occurrence = edges.map occurrence := by
    rw [Graph.numbered, List.map_map]
    rfl
  constructor
  case numbered => exact ⟨Graph.numbered edges, hnumbered, hocc, fun i hi => key_numbered hnodup hi⟩
  case kept =>
    intro e he hid
    rw [List.map_map] at hid
    have hu := hkept e he hid
    refine ⟨orderKey (rankOf (edges.map ResourceEdge.id) e.id), ?_⟩
    rw [hkeys]
    refine List.mem_map.2 ⟨e, (List.mem_filter.1 hu).1, ?_⟩
    rw [if_pos (List.mem_filter.1 hu).2]
  case read_back =>
    rw [List.length_map, ← hread]
    constructor
    · intro heq
      -- rows with the same ids are the same rows
      have hids : (orderedEdges coll viewerId source reordered).map ResourceEdge.id =
          (Graph.numbered edges).map ResourceEdge.id := by
        have hfst := congrArg (List.map Prod.fst) (heq.trans hocc.symm)
        simpa only [occurrences, List.map_map, occurrence, Function.comp_def] using hfst
      have hinj : ∀ e ∈ orderedEdges coll viewerId source reordered, ∀ f ∈ Graph.numbered edges,
          e.id = f.id → e = f := fun e he f hf hid =>
        eq_of_id (mem_orderedEdges.1 he).1 (List.mem_filter.1 (hnumbered.mem_iff.1 hf)).1 hid
      have hlen : (orderedEdges coll viewerId source reordered).length = (Graph.numbered edges).length := by
        simpa using congrArg List.length hids
      refine List.ext_getElem hlen fun i h₁ h₂ => hinj _ (List.getElem_mem h₁) _ (List.getElem_mem h₂) ?_
      have hget := List.getElem_of_eq hids (by simpa using h₁)
      simpa only [List.getElem_map] using hget
    · intro heq
      rw [occurrences, heq]
      exact hocc
  case version =>
    rw [← hversion viewerId source]
    exact (bumpVersion_ok hbump _).trans (if_pos rfl)
  case elsewhere =>
    intro v src hne
    refine ⟨(surfaceRows_renumbered_of_ne hkeys hne).trans (helsewhere v src hne), ?_⟩
    rw [← hversion v src]
    refine (bumpVersion_ok hbump _).trans (if_neg ?_)
    intro heq
    cases heq
    exact hne rfl

end Edits

/-! ## The commands -/

section Commands

variable {B : Type} [NoteBody B] [DecidableEq B] {coll : Collation} {env : SurfaceEnv} {viewerId : Uuid}
  {source : ResourceRef} {rows t : SurfaceRows B}

/-- What an accepted command did to the surface. -/
structure Applied (coll : Collation) (env : SurfaceEnv) (viewerId : Uuid) (source : ResourceRef)
    (command : SurfaceCommand B) (s t : SurfaceRows B) : Prop where
  step : ∃ l, command.listOp env.newEdgeId (occurrences coll viewerId source s.edges) = .some l ∧
    SurfaceStep coll viewerId source s t l
  fresh : ∀ target, command.target? = .some target →
    target ≠ source ∧ target ∉ (occurrences coll viewerId source s.edges).map Prod.snd

theorem snd_occurrences {s : Edges} : (occurrences coll viewerId source s).map Prod.snd =
    (orderedEdges coll viewerId source s).map fun e => e.target := by
  rw [occurrences, List.map_map]
  rfl

omit [NoteBody B] [DecidableEq B] in
/-- What the three insertions share: a row added to a surface that is as it was
found, then the order written. -/
theorem insertion_ok {u : SurfaceRows B} {target : ResourceRef} {position : SurfacePosition} {index : Nat} {s : Edges}
    {edge : ResourceEdge} (hindex : insertionIndex (orderedEdges coll viewerId source rows.edges) position = .ok index)
    (hsurfaces : ∀ v src, surfaceRows v src u.edges = surfaceRows v src rows.edges)
    (hversion : ∀ v src, surfaceVersion v src u = surfaceVersion v src rows)
    (hinsert : insertOrderedTarget coll env.toGraphView viewerId source target u.edges = .ok (s, edge))
    (hwrite : writeOrder coll viewerId source ((orderedEdges coll viewerId source rows.edges).insertIdx index edge)
      { u with edges := s } = .ok t) :
    (∃ l, place Prod.fst (occurrences coll viewerId source rows.edges) (env.newEdgeId, target) position = .some l ∧
      SurfaceStep coll viewerId source rows t l) ∧
      target ≠ source ∧ target ∉ (occurrences coll viewerId source rows.edges).map Prod.snd := by
  obtain ⟨hid, htarget, hself, hfresh, hrow, hothers⟩ := insertOrderedTarget_ok hinsert
  rw [orderedEdges_congr (hsurfaces viewerId source), ← snd_occurrences] at hfresh
  have hplace := place_occurrences hindex edge
  rw [show occurrence edge = (env.newEdgeId, target) by rw [occurrence, hid, htarget]] at hplace
  have hfound : ∀ e ∈ surfaceRows viewerId source rows.edges, e ∈ surfaceRows viewerId source s := by
    intro e he
    rw [hrow, hsurfaces viewerId source]
    exact List.mem_cons_of_mem _ he
  refine ⟨⟨_, hplace, .of_writeOrder hwrite ?_ (fun e he _ => hfound e he) hversion ?_⟩, hself, hfresh⟩
  · intro e he
    rcases mem_insertionIndex hindex he with rfl | he
    · have hmem : e ∈ surfaceRows viewerId source s := by rw [hrow]; exact List.mem_cons_self
      exact (List.mem_filter.1 hmem).1
    · exact (List.mem_filter.1 (hfound e (perm_orderedEdges.mem_iff.1 he))).1
  · exact fun v src hne => (hothers v src hne).trans (hsurfaces v src)

theorem insertNoteOccurrence_ok {u : SurfaceRows B} {noteId : Uuid} {body : B} {position : SurfacePosition}
    (hsurfaces : ∀ v src, surfaceRows v src u.edges = surfaceRows v src rows.edges)
    (hversion : ∀ v src, surfaceVersion v src u = surfaceVersion v src rows)
    (h : insertNoteOccurrence coll env viewerId source noteId body (.some position) u = .ok t) :
    (∃ l, place Prod.fst (occurrences coll viewerId source rows.edges) (env.newEdgeId, noteRef noteId) position =
      .some l ∧ SurfaceStep coll viewerId source rows t l) ∧
      noteRef noteId ≠ source ∧ noteRef noteId ∉ (occurrences coll viewerId source rows.edges).map Prod.snd := by
  obtain ⟨_, -, h⟩ := bind_eq_ok.1 h
  obtain ⟨-, h⟩ := check_eq_ok.1 h
  obtain ⟨index, hindex, h⟩ := bind_eq_ok.1 h
  obtain ⟨_, -, h⟩ := bind_eq_ok.1 h
  obtain ⟨⟨u', note⟩, hupsert, h⟩ := bind_eq_ok.1 h
  obtain ⟨⟨s, edge⟩, hinsert, h⟩ := bind_eq_ok.1 h
  obtain ⟨hnote, hsurfaces', hversion'⟩ := upsertNoteBody_ok hupsert
  rw [orderedEdges_congr (hsurfaces viewerId source)] at hindex h
  simp only [hnote] at hinsert
  exact insertion_ok hindex (fun v src => (hsurfaces' v src).trans (hsurfaces v src))
    (fun v src => (hversion' v src).trans (hversion v src)) hinsert h

/-- **Every accepted command is the list operation it names.** -/
theorem applyCommand_ok {command : SurfaceCommand B}
    (h : applyCommand coll env viewerId source (orderedEdges coll viewerId source rows.edges) rows command = .ok t) :
    Applied coll env viewerId source command rows t := by
  cases command with
  | insertNote noteId position body =>
    obtain ⟨hstep, hfresh⟩ := insertNoteOccurrence_ok (fun _ _ => rfl) (fun _ _ => rfl) h
    refine ⟨hstep, fun target htarget => ?_⟩
    cases htarget
    exact hfresh
  | splitNote occurrenceId noteId leftBody rightBody =>
    obtain ⟨leftEdge, hleft, h⟩ := bind_eq_ok.1 h
    obtain ⟨-, h⟩ := check_eq_ok.1 h
    obtain ⟨_, -, h⟩ := bind_eq_ok.1 h
    obtain ⟨_, -, h⟩ := bind_eq_ok.1 h
    obtain ⟨⟨u, left⟩, hupsert, h⟩ := bind_eq_ok.1 h
    obtain ⟨-, hsurfaces, hversion⟩ := upsertNoteBody_ok hupsert
    obtain ⟨hstep, hfresh⟩ := insertNoteOccurrence_ok hsurfaces hversion h
    rw [(orderedEdgeForOccurrence_eq_ok.1 hleft).2.1] at hstep
    refine ⟨hstep, fun target htarget => ?_⟩
    cases htarget
    exact hfresh
  | insertResource targetRef position =>
    obtain ⟨target, hparse, h⟩ := bind_eq_ok.1 h
    obtain ⟨index, hindex, h⟩ := bind_eq_ok.1 h
    obtain ⟨⟨s, edge⟩, hinsert, h⟩ := bind_eq_ok.1 h
    obtain ⟨hstep, hfresh⟩ := insertion_ok hindex (fun _ _ => rfl) (fun _ _ => rfl) hinsert h
    have hparsed : parseResourceRef targetRef = .some target := by
      unfold parseRefOrError at hparse
      split at hparse
      next ref href =>
        cases hparse
        exact href
      next => cases hparse
    constructor
    case step => simpa only [SurfaceCommand.listOp, hparsed, Option.bind_some] using hstep
    case fresh =>
      intro target' htarget
      rw [SurfaceCommand.target?, hparsed] at htarget
      cases htarget
      exact hfresh
  | moveOccurrence occurrenceId position =>
    obtain ⟨edge, hedge, h⟩ := bind_eq_ok.1 h
    obtain ⟨index, hindex, h⟩ := bind_eq_ok.1 h
    obtain ⟨-, h⟩ := check_eq_ok.1 h
    obtain ⟨hmem, hid, hon⟩ := orderedEdgeForOccurrence_eq_ok.1 hedge
    have hordered : edge ∈ orderedEdges coll viewerId source rows.edges := mem_orderedEdges.2 ⟨hmem, hon⟩
    have hfind : (orderedEdges coll viewerId source rows.edges).find? (fun e => decide (e.id = occurrenceId)) =
        .some edge := by
      cases hf : (orderedEdges coll viewerId source rows.edges).find? fun e => decide (e.id = occurrenceId) with
      | none => exact absurd hid (by simpa using List.find?_eq_none.1 hf edge hordered)
      | some found =>
        have hfid : found.id = occurrenceId := by simpa using List.find?_some hf
        rw [eq_of_id (mem_orderedEdges.1 (List.mem_of_find?_eq_some hf)).1 hmem (hfid.trans hid.symm)]
    have hmove : move ResourceEdge.id (orderedEdges coll viewerId source rows.edges) occurrenceId position =
        .some (((orderedEdges coll viewerId source rows.edges).filter fun e => e.id ≠ edge.id).insertIdx index edge) := by
      rw [move, hfind, Option.bind_some, without, ← hid]
      exact insertionIndex_ok hindex edge
    have hspec : move Prod.fst (occurrences coll viewerId source rows.edges) occurrenceId position =
        (move ResourceEdge.id (orderedEdges coll viewerId source rows.edges) occurrenceId position).map
          (List.map occurrence) := move_map fun _ => rfl
    rw [hmove, Option.map_some] at hspec
    refine ⟨⟨_, hspec, .of_writeOrder h ?_ (fun e he _ => he) (fun _ _ => rfl) fun _ _ _ => rfl⟩,
      fun target htarget => by cases htarget⟩
    intro e he
    rcases mem_insertionIndex hindex he with rfl | he
    · exact hmem
    · exact (mem_orderedEdges.1 (List.mem_filter.1 he).1).1
  | removeOccurrence occurrenceId =>
    obtain ⟨s, hremove, h⟩ := bind_eq_ok.1 h
    obtain ⟨edge, hedge, hremove⟩ := bind_eq_ok.1 hremove
    cases hremove
    obtain ⟨hmem, hid, hon⟩ := orderedEdgeForOccurrence_eq_ok.1 hedge
    have hleft : orderedEdges coll viewerId source (rows.edges.deleteWhere fun e => e.id == edge.id) =
        without ResourceEdge.id (orderedEdges coll viewerId source rows.edges) occurrenceId := by
      rw [orderedEdges_deleteWhere, without, ← hid]
      refine List.filter_congr fun e _ => ?_
      by_cases he : e.id = edge.id <;> simp [he]
    have hspec : without Prod.fst (occurrences coll viewerId source rows.edges) occurrenceId =
        (without ResourceEdge.id (orderedEdges coll viewerId source rows.edges) occurrenceId).map occurrence :=
      without_map fun _ => rfl
    have hlisted : occurrenceId ∈ (occurrences coll viewerId source rows.edges).map Prod.fst := by
      rw [occurrences, List.map_map, ← hid]
      exact List.mem_map.2 ⟨edge, mem_orderedEdges.2 ⟨hmem, hon⟩, rfl⟩
    rw [hleft] at h
    refine ⟨⟨_, ?_, .of_writeOrder h ?_ ?_ (fun _ _ => rfl) ?_⟩, fun target htarget => by cases htarget⟩
    · rw [SurfaceCommand.listOp, if_pos hlisted, hspec]
    · intro e he
      rw [← hleft] at he
      exact (mem_orderedEdges.1 he).1
    · intro e he hkept
      obtain ⟨f, hf, hfid⟩ := List.mem_map.1 hkept
      rw [← hleft, mem_orderedEdges] at hf
      refine List.mem_filter.2 ⟨?_, (List.mem_filter.1 he).2⟩
      rw [← eq_of_id (Store.mem_deleteWhere.1 hf.1).1 (List.mem_filter.1 he).1 hfid]
      exact hf.1
    · intro v src hne
      rw [surfaceRows, surfaceRows, Store.rows_deleteWhere, List.filter_filter]
      refine List.filter_congr fun e he => ?_
      by_cases hother : onSurface v src e = true
      · have hdistinct : e.id ≠ edge.id := by
          intro heq
          rw [eq_of_id he hmem heq] at hother
          simp only [onSurface, Bool.and_eq_true, beq_iff_eq] at hother hon
          exact hne (Prod.ext (hother.1.1.symm.trans hon.1.1) (hother.1.2.symm.trans hon.1.2))
        simp [hother, hdistinct]
      · simp [hother]

/-! ## Base versions -/

omit [NoteBody B] [DecidableEq B] in
theorem raiseSurfaceConflict_ne_ok : raiseSurfaceConflict coll env viewerId source rows ≠ .ok () := by
  intro h
  obtain ⟨_, -, h⟩ := bind_eq_ok.1 h
  cases h

/-- The base names a lane at its current version. -/
def LaneVersion.Current (viewerId : Uuid) (rows : SurfaceRows B) (base : LaneVersion) : Prop :=
  ∃ ref, parseResourceRef base.ref = .some ref ∧ Versions.versionOf rows.versions ⟨viewerId, ref, base.lane⟩ = base.version

theorem parseRefOrError_eq_ok {raw : Text} {ref : ResourceRef} :
    parseRefOrError raw = .ok ref ↔ parseResourceRef raw = .some ref := by
  unfold parseRefOrError
  cases parseResourceRef raw with
  | none => simp only [reduceCtorEq]
  | some found => simp only [Except.ok.injEq, Option.some.injEq]

omit [NoteBody B] [DecidableEq B] in
theorem validateBaseVersions_ok {required : List (ResourceRef × Lane)} :
    ∀ {bases : List LaneVersion} {supplied : List (ResourceRef × Lane)},
      validateBaseVersions coll env viewerId source required rows supplied bases = .ok () →
      (∀ base ∈ bases, base.Current viewerId rows) ∧
        ∀ lane ∈ required, lane ∈ supplied ∨ ∃ base ∈ bases, parseResourceRef base.ref = .some lane.1 ∧ base.lane = lane.2
  | [], supplied, h => by
    unfold validateBaseVersions at h
    split at h
    · exact absurd h raiseSurfaceConflict_ne_ok
    next hall =>
      simp only [Bool.not_eq_true, Bool.not_eq_false', List.all_eq_true, decide_eq_true_eq] at hall
      exact ⟨by simp, fun lane hlane => .inl (hall lane hlane)⟩
  | base :: rest, supplied, h => by
    obtain ⟨ref, hparse, h⟩ := bind_eq_ok.1 h
    obtain ⟨-, h⟩ := check_eq_ok.1 h
    obtain ⟨_, -, h⟩ := bind_eq_ok.1 h
    split at h
    · exact absurd h raiseSurfaceConflict_ne_ok
    next hversion =>
      obtain ⟨hcurrent, hrequired⟩ := validateBaseVersions_ok h
      rw [parseRefOrError_eq_ok] at hparse
      refine ⟨?_, fun lane hlane => ?_⟩
      · rw [List.forall_mem_cons]
        exact ⟨⟨ref, hparse, not_not.1 hversion⟩, hcurrent⟩
      · rcases hrequired lane hlane with hin | ⟨b, hb, hrest⟩
        · rcases List.mem_cons.1 hin with rfl | hin
          · exact .inr ⟨base, List.mem_cons_self, hparse, rfl⟩
          · exact .inl hin
        · exact .inr ⟨b, List.mem_cons_of_mem _ hb, hrest⟩

/-- What an accepted request that is no replay found and left. -/
structure Accepted (coll : Collation) (call : SurfaceCall B) (s t : SurfaceRows B) : Prop where
  applied : Applied coll call.env call.viewerId call.source call.request.command s t
  current : ∀ base ∈ call.request.baseVersions, base.Current call.viewerId s
  brought : ∃ base ∈ call.request.baseVersions, parseResourceRef base.ref = .some call.source ∧
    base.lane = .outgoingEdges

theorem applySurfaceRequest_ok {request : SurfaceRequest B} {memo out : SurfaceOut}
    (h : applySurfaceRequest coll env viewerId source request rows = .ok (t, memo, out)) :
    Accepted coll ⟨viewerId, source, env, request⟩ rows t ∧ memo = out := by
  obtain ⟨required, hrequired, h⟩ := bind_eq_ok.1 h
  obtain ⟨_, hvalid, h⟩ := bind_eq_ok.1 h
  obtain ⟨u, happly, h⟩ := bind_eq_ok.1 h
  obtain ⟨response, -, h⟩ := bind_eq_ok.1 h
  cases h
  obtain ⟨hcurrent, hbrought⟩ := validateBaseVersions_ok hvalid
  have hlane : (source, Lane.outgoingEdges) ∈ required := by
    unfold requiredLanes at hrequired
    split at hrequired
    · obtain ⟨edge, -, hrequired⟩ := bind_eq_ok.1 hrequired
      obtain ⟨-, hrequired⟩ := check_eq_ok.1 hrequired
      cases hrequired
      exact List.mem_cons_self
    · cases hrequired
      exact List.mem_cons_self
  refine ⟨⟨applyCommand_ok happly, hcurrent, ?_⟩, rfl⟩
  exact (hbrought _ hlane).resolve_left List.not_mem_nil

end Commands

/-! ## Runs -/

section Runs

variable {B : Type} [NoteBody B] [DecidableEq B]

def SurfaceCall.mutationKey (call : SurfaceCall B) : MutationKey :=
  surfaceKey call.viewerId call.source call.request.clientMutationId

/-- A base version is not current, or the command would add what is listed
already, or the surface itself. -/
def SurfaceCall.Refusable (coll : Collation) (call : SurfaceCall B) (s : SurfaceRows B) : Prop :=
  (∃ base ∈ call.request.baseVersions, ¬ base.Current call.viewerId s) ∨
    ∃ target, call.request.command.target? = .some target ∧
      (target = call.source ∨ target ∈ (occurrences coll call.viewerId call.source s.edges).map Prod.snd)

/-- One call: a replay answers from its memo and writes nothing; any other call
is the list operation it names, or is refused and writes nothing. -/
structure CallSpec (coll : Collation) (sha : Sha256) (call : SurfaceCall B) (s t : SurfaceState B) : Prop where
  replayed : ∀ memo, s.mutations.find? call.mutationKey = .some memo →
    t = s ∧ ∀ r, call.run coll sha s = .ok r → r.2 = memo.responseJson
  accepted : s.mutations.find? call.mutationKey = .none → ∀ r, call.run coll sha s = .ok r →
    t = r.1 ∧ Accepted coll call s.rows t.rows
  refused : ∀ e, call.run coll sha s = .error e → t = s
  refusable : s.mutations.find? call.mutationKey = .none → call.Refusable coll s.rows → ∃ e, call.run coll sha s = .error e

theorem run_ok {coll : Collation} {sha : Sha256} {call : SurfaceCall B} {s : SurfaceState B}
    {r : SurfaceState B × SurfaceOut} (h : call.run coll sha s = .ok r) :
    (∃ memo, s.mutations.find? call.mutationKey = .some memo ∧ r.1 = s ∧ r.2 = memo.responseJson) ∨
      (s.mutations.find? call.mutationKey = .none ∧ Accepted coll call s.rows r.1.rows) := by
  obtain ⟨_, -, h⟩ := bind_eq_ok.1 h
  obtain ⟨-, h⟩ := check_eq_ok.1 h
  obtain ⟨⟨⟨rows, ledger⟩, out⟩, hrun, rfl⟩ := map_eq_ok.1 h
  rcases memoized_eq_ok.1 hrun with ⟨response, hfind, hserve, hsame⟩ | ⟨hfind, response, happly, -⟩
  · cases hserve
    cases hsame
    exact .inl ⟨_, hfind, rfl, rfl⟩
  · exact .inr ⟨hfind, (applySurfaceRequest_ok happly).1⟩

theorem callSpec_after (coll : Collation) (sha : Sha256) (call : SurfaceCall B) (s : SurfaceState B) :
    CallSpec coll sha call s (call.after coll sha s) := by
  have hafter : ∀ r, call.run coll sha s = .ok r → call.after coll sha s = r.1 := by
    intro r hr
    rw [SurfaceCall.after, hr]
  have hrefused : ∀ e, call.run coll sha s = .error e → call.after coll sha s = s := by
    intro e he
    rw [SurfaceCall.after, he]
  constructor
  case replayed =>
    intro memo hmemo
    have hreplay : ∀ r, call.run coll sha s = .ok r → r.1 = s ∧ r.2 = memo.responseJson := by
      intro r hr
      rcases run_ok hr with ⟨found, hfound, hsame, hout⟩ | ⟨hnone, -⟩
      · rw [hmemo] at hfound
        cases hfound
        exact ⟨hsame, hout⟩
      · rw [hmemo] at hnone
        cases hnone
    refine ⟨?_, fun r hr => (hreplay r hr).2⟩
    cases hr : call.run coll sha s with
    | ok r => rw [hafter r hr, (hreplay r hr).1]
    | error e => exact hrefused e hr
  case accepted =>
    intro hnone r hr
    rcases run_ok hr with ⟨found, hfound, -⟩ | ⟨-, haccepted⟩
    · rw [hnone] at hfound
      cases hfound
    · rw [hafter r hr]
      exact ⟨rfl, haccepted⟩
  case refused => exact hrefused
  case refusable =>
    intro hnone hrefusable
    cases hr : call.run coll sha s with
    | error e => exact ⟨e, rfl⟩
    | ok r =>
      rcases run_ok hr with ⟨found, hfound, -⟩ | ⟨-, haccepted⟩
      · rw [hnone] at hfound
        cases hfound
      · rcases hrefusable with ⟨base, hmem, hstale⟩ | ⟨target, htarget, hbad⟩
        · exact absurd (haccepted.current base hmem) hstale
        · obtain ⟨hself, hfresh⟩ := haccepted.applied.fresh target htarget
          rcases hbad with hbad | hbad
          · exact absurd hbad hself
          · exact absurd hbad hfresh

/-- **Surface commands are list operations**, at every step of any sequence of
commands of any viewers on any surfaces, from any state. -/
theorem surface_commands_refine (coll : Collation) (sha : Sha256) (s : SurfaceState B) (calls : List (SurfaceCall B)) :
    Along (fun s call t => CallSpec coll sha call s t) s
      (replay (fun s call => .some (SurfaceCall.after coll sha call s)) s calls) := by
  refine Along.mono (fun s call t hstep => ?_) System.run_replay (P := (surfaceSystem coll sha).step)
  simp only [surfaceSystem, System.ofFun_step, Option.some.injEq] at hstep
  rw [← hstep]
  exact callSpec_after coll sha call s

end Runs

/-! ### A replayed command -/

def codePoints : Collation where
  le a b := decide (a ≤ b)
  total a b := by simpa using le_total a b
  trans a b c hab hbc := by simpa using le_trans (of_decide_eq_true hab) (of_decide_eq_true hbc)
  antisymm a b hab hba := le_antisymm (of_decide_eq_true hab) (of_decide_eq_true hba)
  digits a b _ _ := decide_eq_true_iff

/-- A body that is the refs it holds. -/
instance : NoteBody (List ResourceRef) := ⟨id⟩

def emptySurfaces : SurfaceState (List ResourceRef) := ⟨⟨.empty, .empty, .empty⟩, .empty⟩

def sampleInsert : SurfaceRequest (List ResourceRef) where
  clientMutationId := "m1".toList
  baseVersions := [⟨"page:00000000-0000-0000-0000-000000000001".toList, .outgoingEdges, 1⟩]
  command := .insertResource "media:00000000-0000-0000-0000-000000000002".toList .start
  requestBytes := ascii ("\x7b\"base_versions\":[\x7b\"lane\":\"outgoing_edges\",\"ref\":\"page:00000000-0000-0000" ++
    "-0000-000000000001\",\"version\":1\x7d],\"client_mutation_id\":\"m1\",\"command\":\x7b" ++
    "\"position\":\x7b\"kind\":\"start\"\x7d,\"target_ref\":\"media:00000000-0000-0000-0000-0" ++
    "00000000002\",\"type\":\"insert_resource\"\x7d\x7d")

def sampleInsertSha : Sha256 where
  hexdigest bytes :=
    if bytes = sampleInsert.requestBytes then
      "780d28a58ad7680d052f292aa4b117bb5cb4c797263954194f161b3ec8af8a1d".toList
    else []

def sampleInsertCall : SurfaceCall (List ResourceRef) where
  viewerId := 1
  source := ⟨.page, 1⟩
  env := { visible := fun _ => true, newEdgeId := 7, bodyEdgeId := fun i => i, leftBodyEdgeId := fun i => i, hydrates := true }
  request := sampleInsert

def insertedOnce : SurfaceState (List ResourceRef) := sampleInsertCall.after codePoints sampleInsertSha emptySurfaces

/-- Sent again, the command is accepted although its base version is stale, and
the version stays. -/
theorem stale_base_accepted_on_replay :
    surfaceVersion 1 ⟨.page, 1⟩ insertedOnce.rows = 2 ∧
      sampleInsert.baseVersions.map LaneVersion.version = [1] ∧
      (sampleInsertCall.run codePoints sampleInsertSha insertedOnce).toOption.isSome = true ∧
      surfaceVersion 1 ⟨.page, 1⟩ (sampleInsertCall.after codePoints sampleInsertSha insertedOnce).rows = 2 := by
  -- literals as lists of characters, which the kernel need not decode
  simp only [insertedOnce, sampleInsertCall, sampleInsertSha, sampleInsert, ascii_append]
  rw [ascii_ofList, ascii_ofList, ascii_ofList, ascii_ofList, String.toList_ofList, String.toList_ofList,
    String.toList_ofList, String.toList_ofList]
  decide +kernel

end Nexus.Surfaces
