/-
`resource_items/surfaces.py`: the commands on a surface, an ordered list of
occurrences that a page or a note owns, with the versions of
`resource_items/versions.py` and the note bodies of `note_bodies.py` that they
write.

A command is one serializable transaction behind the replay ledger. What it is
told of other tables (visibility, whether the surface hydrates) and the ids it
draws come in a `SurfaceEnv`. A note body is known by the refs it holds. Of a
response only the surface's occurrences and the source's versions are kept;
note indexing and view states are left out.
-/
import Nexus.Graph.Adjacency
import Nexus.Lib.Sequence
import Nexus.Lib.Run
import Nexus.Mutations.ReplayLedger

namespace Nexus.Surfaces
open Relational Mutations Graph Sequence Transition

/-! ## Versions -/

/-- `resource_versions.lane` -/
inductive Lane
  | title
  | body
  | outgoingEdges
  deriving DecidableEq, Repr

structure LaneKey where
  userId : Uuid
  ref : ResourceRef
  lane : Lane
  deriving DecidableEq, Repr

/-- A row of `resource_versions`, under `uix_resource_versions_lane`. -/
structure ResourceVersion where
  key : LaneKey
  version : Nat
  deriving DecidableEq, Repr

abbrev Versions := Table ResourceVersion ResourceVersion.key

/-- The version a lane is at; one without a row is at 1. -/
def Versions.versionOf (t : Versions) (key : LaneKey) : Nat :=
  match t.find? key with
  | .none => 1
  | .some row => row.version

def ensureVersion (key : LaneKey) (t : Versions) : Except Abort Versions :=
  match t.find? key with
  | .some _ => .ok t
  | .none => match t.insert? ⟨key, 1⟩ with
    | .none => .error .database
    | .some t => .ok t

def bumpVersion (key : LaneKey) (t : Versions) : Except Abort Versions := do
  let t ← ensureVersion key t
  match pgInteger (Versions.versionOf t key + 1) with
  | .none => .error .database
  | .some version => .ok (t.updateWhere (fun row => row.key == key) fun row => { row with version })

/-! ## Notes -/

/-- A note body, by the refs `_body_target_refs` finds in it. -/
class NoteBody (B : Type) where
  targetRefs : B → List ResourceRef

structure NoteBlock (B : Type) where
  id : Uuid
  userId : Uuid
  bodyPmJson : B
  deriving DecidableEq, Repr

abbrev Notes (B : Type) := Table (NoteBlock B) NoteBlock.id

/-- The rows a command reads and writes. -/
structure SurfaceRows (B : Type) where
  edges : Edges
  versions : Versions
  notes : Notes B

/-- What a command is told of other tables, and the ids it draws. -/
structure SurfaceEnv extends GraphView where
  /-- the ids of the edges a new note's body gets -/
  bodyEdgeId : Nat → Uuid
  /-- the ids of the edges the left body of a split gets -/
  leftBodyEdgeId : Nat → Uuid
  /-- the projection of the surface raises nothing -/
  hydrates : Bool

def noteRef (blockId : Uuid) : ResourceRef := ⟨.noteBlock, blockId⟩

section NoteBodies

variable {B : Type} [NoteBody B] [DecidableEq B]

def syncNoteBodyEdges (w : GraphView) (newId : Nat → Uuid) (viewerId : Uuid) (block : NoteBlock B) (s : Edges) :
    Except Abort Edges :=
  let source := noteRef block.id
  let targets := (NoteBody.targetRefs block.bodyPmJson).eraseDups.filter fun target =>
    target ≠ source ∧ resourceCanLinkTarget target
  replaceEdgesForOrigin w newId viewerId source .noteBody
    (targets.map fun target => { source, target, kind := .context, origin := .noteBody }) s

def upsertNoteBody (w : GraphView) (newId : Nat → Uuid) (viewerId blockId : Uuid) (body : B) (rows : SurfaceRows B) :
    Except Abort (SurfaceRows B × NoteBlock B) :=
  match rows.notes.find? blockId with
  | .none =>
    let block : NoteBlock B := ⟨blockId, viewerId, body⟩
    match rows.notes.insert? block with
    | .none => .error .database
    | .some notes => do
      let versions ← ensureVersion ⟨viewerId, noteRef blockId, .body⟩ rows.versions
      let versions ← ensureVersion ⟨viewerId, noteRef blockId, .outgoingEdges⟩ versions
      let edges ← syncNoteBodyEdges w newId viewerId block rows.edges
      .ok (⟨edges, versions, notes⟩, block)
  | .some block =>
    if block.userId ≠ viewerId then .error (.api ⟨.noteConflict, "Note block id already exists"⟩)
    else if block.bodyPmJson = body then .ok (rows, block)
    else do
      let changed := { block with bodyPmJson := body }
      let notes := rows.notes.updateWhere (fun row => row.id == blockId) fun row => { row with bodyPmJson := body }
      let versions ← bumpVersion ⟨viewerId, noteRef blockId, .body⟩ rows.versions
      let edges ← syncNoteBodyEdges w newId viewerId changed rows.edges
      .ok (⟨edges, versions, notes⟩, changed)

end NoteBodies

/-! ## Requests -/

abbrev SurfacePosition := Position Uuid

inductive SurfaceCommand (B : Type)
  | insertNote (noteId : Uuid) (position : SurfacePosition) (body : B)
  | splitNote (occurrenceId noteId : Uuid) (leftBody rightBody : B)
  | insertResource (targetRef : Text) (position : SurfacePosition)
  | moveOccurrence (occurrenceId : Uuid) (position : SurfacePosition)
  | removeOccurrence (occurrenceId : Uuid)
  deriving DecidableEq, Repr

/-- `ResourceLaneVersionIn` -/
structure LaneVersion where
  ref : Text
  lane : Lane
  version : Nat
  deriving DecidableEq, Repr

/-- `ResourceSurfaceCommandRequest`, with the canonical bytes of its dump. -/
structure SurfaceRequest (B : Type) where
  clientMutationId : Text
  baseVersions : List LaneVersion
  command : SurfaceCommand B
  requestBytes : Bytes
  deriving DecidableEq, Repr

/-- `ResourceSurfaceCommandOut` -/
structure SurfaceOut where
  clientMutationId : Text
  orderedItems : List (Uuid × ResourceRef)
  versionByLane : List (Lane × Nat)
  deriving DecidableEq, Repr

structure SurfaceState (B : Type) where
  rows : SurfaceRows B
  mutations : Ledger SurfaceOut

/-- `f"resource:{source.uri}:surface_commands"` -/
def surfaceScope (source : ResourceRef) : Text := "resource:".toList ++ source.uri ++ ":surface_commands".toList

def surfaceKey (viewerId : Uuid) (source : ResourceRef) (clientMutationId : Text) : MutationKey :=
  ⟨viewerId, surfaceScope source, clientMutationId⟩

/-- The occurrences of a surface in order: their ids and what they show. -/
def occurrences (coll : Collation) (viewerId : Uuid) (source : ResourceRef) (s : Edges) : List (Uuid × ResourceRef) :=
  (orderedEdges coll viewerId source s).map fun e => (e.id, e.target)

/-! ## Commands -/

section Commands

variable {B : Type} [NoteBody B] [DecidableEq B] (coll : Collation) (env : SurfaceEnv) (viewerId : Uuid) (source : ResourceRef)

def getSurface (clientMutationId : Text) (rows : SurfaceRows B) : Except Abort SurfaceOut := do
  assertRefVisible env.toGraphView source
  if !resourceCanOwnOrderedAdjacency source then .error (invalidRequest "Resource cannot own a surface")
  else if env.hydrates then
    .ok ⟨clientMutationId, occurrences coll viewerId source rows.edges,
      (rows.versions.rows.filter fun row => row.key.userId == viewerId && row.key.ref == source).map fun row =>
        (row.key.lane, row.version)⟩
  else .error .defect

/-- `_raise_surface_conflict`, whose details carry the surface. -/
def raiseSurfaceConflict (rows : SurfaceRows B) : Except Abort Unit := do
  let _ ← getSurface coll env viewerId source [] rows
  .error (.api ⟨.resourceConflict, "Resource surface version is stale"⟩)

def parseRefOrError (raw : Text) : Except Abort ResourceRef :=
  match parseResourceRef raw with
  | .some ref => .ok ref
  | .none => .error (invalidRequest "Resource ref is invalid")

/-- `_validate_base_versions`, with the lanes supplied so far. -/
def validateBaseVersions (required : List (ResourceRef × Lane)) (rows : SurfaceRows B) :
    List (ResourceRef × Lane) → List LaneVersion → Except Abort Unit
  | supplied, [] =>
    if !(required.all (· ∈ supplied)) then raiseSurfaceConflict coll env viewerId source rows
    else if !(supplied.all (· ∈ required)) then .error (invalidRequest "Base versions must match the command lanes")
    else .ok ()
  | supplied, base :: rest => do
    let ref ← parseRefOrError base.ref
    if (ref, base.lane) ∈ supplied then .error (invalidRequest "Base versions must be unique")
    else
      assertRefVisible env.toGraphView ref
      if rows.versions.versionOf ⟨viewerId, ref, base.lane⟩ ≠ base.version then
        raiseSurfaceConflict coll env viewerId source rows
      else validateBaseVersions required rows ((ref, base.lane) :: supplied) rest

def insertionIndex (edges : List ResourceEdge) : SurfacePosition → Except Abort Nat
  | .start => .ok 0
  | .after occurrenceId =>
    match edges.findIdx? fun candidate => candidate.id = occurrenceId with
    | .some index => .ok (index + 1)
    | .none => .error (invalidRequest "Surface position is not in the source")

def requireNewNoteId (noteId : Uuid) (rows : SurfaceRows B) : Except Abort Unit :=
  match rows.notes.find? noteId with
  | .none => .ok ()
  | .some _ => .error (invalidRequest "New note id already exists")

/-- The end every ordered edit shares: the surface renumbered in the given
order, and its version one up. -/
def writeOrder (edges : List ResourceEdge) (rows : SurfaceRows B) : Except Abort (SurfaceRows B) := do
  let reordered ← reorderOrderedEdges coll viewerId source edges rows.edges
  let versions ← bumpVersion ⟨viewerId, source, .outgoingEdges⟩ rows.versions
  .ok { rows with edges := reordered, versions }

/-- `insert_note_occurrence_without_commit`; no position is the end. -/
def insertNoteOccurrence (noteId : Uuid) (body : B) (position : Option SurfacePosition) (rows : SurfaceRows B) :
    Except Abort (SurfaceRows B) := do
  assertRefVisible env.toGraphView source
  if !resourceCanOwnOrderedAdjacency source then .error (invalidRequest "Resource cannot own a surface")
  else
    let edges := orderedEdges coll viewerId source rows.edges
    let index ← match position with
      | .none => .ok edges.length
      | .some position => insertionIndex edges position
    requireNewNoteId noteId rows
    let (rows, note) ← upsertNoteBody env.toGraphView env.bodyEdgeId viewerId noteId body rows
    let (s, edge) ← insertOrderedTarget coll env.toGraphView viewerId source (noteRef note.id) rows.edges
    writeOrder coll viewerId source (edges.insertIdx index edge) { rows with edges := s }

/-- `_apply_command`, whose `edges` are the surface as it was found. -/
def applyCommand (edges : List ResourceEdge) (rows : SurfaceRows B) : SurfaceCommand B → Except Abort (SurfaceRows B)
  | .insertNote noteId position body =>
    insertNoteOccurrence coll env viewerId source noteId body (.some position) rows
  | .splitNote occurrenceId noteId leftBody rightBody => do
    let leftEdge ← orderedEdgeForOccurrence viewerId source occurrenceId rows.edges
    if leftEdge.target.scheme ≠ .noteBlock then .error (invalidRequest "Only note occurrences can be split")
    else
      requireNewNoteId noteId rows
      let _ ← insertionIndex edges (.after leftEdge.id)
      let (rows, _) ←
        upsertNoteBody env.toGraphView env.leftBodyEdgeId viewerId leftEdge.target.id leftBody rows
      insertNoteOccurrence coll env viewerId source noteId rightBody (.some (.after leftEdge.id)) rows
  | .insertResource targetRef position => do
    let target ← parseRefOrError targetRef
    let index ← insertionIndex edges position
    let (s, edge) ← insertOrderedTarget coll env.toGraphView viewerId source target rows.edges
    writeOrder coll viewerId source (edges.insertIdx index edge) { rows with edges := s }
  | .moveOccurrence occurrenceId position => do
    let edge ← orderedEdgeForOccurrence viewerId source occurrenceId rows.edges
    let remaining := edges.filter fun candidate => candidate.id ≠ edge.id
    let index ← insertionIndex remaining position
    let reordered := remaining.insertIdx index edge
    if reordered.map ResourceEdge.id = edges.map ResourceEdge.id then
      .error (invalidRequest "Occurrence is already at that position")
    else writeOrder coll viewerId source reordered rows
  | .removeOccurrence occurrenceId => do
    let s ← removeOrderedEdge viewerId source occurrenceId rows.edges
    writeOrder coll viewerId source (orderedEdges coll viewerId source s) { rows with edges := s }

/-- The lanes whose base versions a command has to bring. -/
def requiredLanes (rows : SurfaceRows B) : SurfaceCommand B → Except Abort (List (ResourceRef × Lane))
  | .splitNote occurrenceId _ _ _ => do
    let edge ← orderedEdgeForOccurrence viewerId source occurrenceId rows.edges
    if edge.target.scheme ≠ .noteBlock then .error (invalidRequest "Only note occurrences can be split")
    else .ok [(source, .outgoingEdges), (noteRef edge.target.id, .body)]
  | _ => .ok [(source, .outgoingEdges)]

/-- What a command does when it is no replay. -/
def applySurfaceRequest (request : SurfaceRequest B) (rows : SurfaceRows B) :
    Except Abort (SurfaceRows B × SurfaceOut × SurfaceOut) := do
  let edges := orderedEdges coll viewerId source rows.edges
  let required ← requiredLanes viewerId source rows request.command
  validateBaseVersions coll env viewerId source required rows [] request.baseVersions
  let rows ← applyCommand coll env viewerId source edges rows request.command
  let response ← getSurface coll env viewerId source request.clientMutationId rows
  .ok (rows, response, response)

def executeSurfaceCommand (sha : Sha256) (request : SurfaceRequest B) (s : SurfaceState B) :
    Except Abort (SurfaceState B × SurfaceOut) := do
  assertRefVisible env.toGraphView source
  if !resourceCanOwnOrderedAdjacency source then .error (invalidRequest "Resource cannot own a surface")
  else
    (memoized sha (surfaceKey viewerId source request.clientMutationId) request.requestBytes
      (fun _ response => .ok response) (applySurfaceRequest coll env viewerId source request)
      (s.rows, s.mutations)).map fun r => (⟨r.1.1, r.1.2⟩, r.2)

end Commands

/-! ## Runs -/

structure SurfaceCall (B : Type) where
  viewerId : Uuid
  source : ResourceRef
  env : SurfaceEnv
  request : SurfaceRequest B

variable {B : Type} [NoteBody B] [DecidableEq B]

def SurfaceCall.run (coll : Collation) (sha : Sha256) (call : SurfaceCall B) (s : SurfaceState B) :
    Except Abort (SurfaceState B × SurfaceOut) :=
  executeSurfaceCommand coll call.env call.viewerId call.source sha call.request s

/-- The state once the call is over. -/
def SurfaceCall.after (coll : Collation) (sha : Sha256) (call : SurfaceCall B) (s : SurfaceState B) : SurfaceState B :=
  match call.run coll sha s with
  | .ok r => r.1
  | .error _ => s

/-- Commands of any viewers on any surfaces, one after the other, from any state. -/
def surfaceSystem (coll : Collation) (sha : Sha256) : System (SurfaceState B) (SurfaceCall B) :=
  .ofFun (fun _ => True) fun s call => .some (call.after coll sha s)

end Nexus.Surfaces
