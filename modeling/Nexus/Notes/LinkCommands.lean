/-
`put_link_note`, `delete_link_note` and what `create_link` and `delete_link` are
among them, over the rows a note has.

The note of a Link is nowhere stored: it is a note with a Link-note edge to
either endpoint (`linkNoteBlockId`). `Tracked` carries beside the rows the note
last put through each Link and not deleted since; nothing reads it but the
specification.

`resource_mutations` is three ledgers here, by scope: the memos of Links, those
of Link notes, and the others, among which are those a deleted note takes with
it.
-/
import Nexus.Notes.Deletion
import Nexus.Graph.RelationUniqueness

namespace Nexus.Notes
open Relational Graph Surfaces Mutations Transition

/-! ## Requests -/

/-- `PutLinkNoteRequest`, with the canonical bytes of its dump. -/
structure PutLinkNoteRequest (B : Type) where
  clientMutationId : Text
  noteBlockId : Uuid
  bodyPmJson : B
  requestBytes : Bytes
  deriving DecidableEq, Repr

/-- `LinkNoteOut`; the connection is the edge it hydrates. -/
structure LinkNoteOut where
  noteBlockId : Uuid
  connection : ResourceEdge
  deriving DecidableEq, Repr

structure LinkState (B R : Type) where
  rows : NoteRows B R
  links : Ledger CreateLinkOut
  linkNotes : Ledger LinkNoteOut

/-- What a command is told of the tables around the graph, and the ids it draws. -/
structure LinkNoteEnv extends LinkEnv where
  /-- the ids of the edges a note's body gets -/
  bodyEdgeId : Nat → Uuid
  /-- the ids of the attachments to the source and to the target -/
  attachmentId : Uuid × Uuid
  /-- the Dossier heads about a note -/
  heads : Uuid → List Uuid
  /-- the revisions of their builds -/
  revisions : Uuid → List Uuid
  /-- the order a `SELECT` without `ORDER BY` returns rows in -/
  rowOrder : List ResourceEdge → List ResourceEdge
  rowOrder_perm : ∀ rows, (rowOrder rows).Perm rows

/-- The refs whose edges `_delete_heads` purges. -/
def LinkNoteEnv.dossiers (env : LinkNoteEnv) (noteId : Uuid) : List ResourceRef :=
  ((env.heads noteId).map fun id => ⟨.artifact, id⟩) ++ (env.revisions noteId).map fun id => ⟨.artifactRevision, id⟩

def linkNoteKey (viewerId linkId : Uuid) (clientMutationId : Text) : MutationKey :=
  ⟨viewerId, "link_note:".toList ++ uuidStr linkId, clientMutationId⟩

/-! ## The note of a Link -/

def loadNeutralLink (s : Edges) (viewerId linkId : Uuid) : Except Abort ResourceEdge :=
  match getOwnedEdge s viewerId linkId with
  | .none => .error (.api ⟨.notFound, "Link not found"⟩)
  | .some edge => if edge.isNeutralLinkShape then .ok edge else .error (.api ⟨.notFound, "Link not found"⟩)

/-- `_link_note_block_id`: the first of the notes the query comes across that is
attached to both. -/
def linkNoteBlockId (env : LinkNoteEnv) (s : Edges) (viewerId : Uuid) (a b : ResourceRef) : Option Uuid :=
  let attachments := s.rows.filter fun e => e.userId == viewerId && e.origin == .linkNote &&
    e.source.scheme == .noteBlock && (e.target == a || e.target == b)
  ((env.rowOrder attachments).map fun e => e.source.id).find? fun noteId => carriesMotif s viewerId a b (noteRef noteId)

/-! ## Commands -/

section Commands

variable {B R : Type}

/-- The rows after a write to the graph, the notes and the versions. -/
def NoteRows.withSurface (rows : NoteRows B R) (surface : SurfaceRows B) : NoteRows B R :=
  { rows with edges := surface.edges, versions := surface.versions, notes := surface.notes }

/-- The two attachments of a Link's note. -/
def attachNote (env : LinkNoteEnv) (viewerId : Uuid) (link : ResourceEdge) (noteId : Uuid) (s : Edges) :
    Except Abort Edges := do
  let attach (target : ResourceRef) : EdgeCreate :=
    { source := noteRef noteId, target, kind := .context, origin := .linkNote }
  let (s, _) ← createEdge { env.toGraphView with newEdgeId := env.attachmentId.1 } viewerId (attach link.source) s
  let (s, _) ← createEdge { env.toGraphView with newEdgeId := env.attachmentId.2 } viewerId (attach link.target) s
  .ok s

/-- What `put_link_note` does when the request is not a replay. -/
def applyPutLinkNote [NoteBody B] [DecidableEq B] (env : LinkNoteEnv) (viewerId : Uuid) (link : ResourceEdge)
    (request : PutLinkNoteRequest B) (rows : NoteRows B R) : Except Abort (NoteRows B R × LinkNoteOut × LinkNoteOut) := do
  let existing := linkNoteBlockId env rows.edges viewerId link.source link.target
  if existing.any (· ≠ request.noteBlockId) then
    .error (.api ⟨.noteConflict, "Link already has a different note"⟩)
  else
    let (surface, block) ← upsertNoteBody env.toGraphView env.bodyEdgeId viewerId request.noteBlockId request.bodyPmJson
      ⟨rows.edges, rows.versions, rows.notes⟩
    let edges ← (if existing.isNone then attachNote env viewerId link block.id surface.edges else .ok surface.edges)
    let connection ← connectionForEdge env.toLinkEnv link
    let response : LinkNoteOut := ⟨block.id, connection⟩
    .ok (rows.withSurface { surface with edges }, response, response)

def putLinkNote [NoteBody B] [DecidableEq B] (sha : Sha256) (env : LinkNoteEnv) (viewerId linkId : Uuid)
    (request : PutLinkNoteRequest B) (s : LinkState B R) : Except Abort (LinkState B R × LinkNoteOut) := do
  let link ← loadNeutralLink s.rows.edges viewerId linkId
  (memoized sha (linkNoteKey viewerId linkId request.clientMutationId) request.requestBytes
    (fun _ response => .ok response) (applyPutLinkNote env viewerId link request) (s.rows, s.linkNotes)).map
    fun r => ({ s with rows := r.1.1, linkNotes := r.1.2 }, r.2)

def deleteLinkNote (env : LinkNoteEnv) (viewerId linkId : Uuid) (s : LinkState B R) : Except Abort (LinkState B R) := do
  let link ← loadNeutralLink s.rows.edges viewerId linkId
  match linkNoteBlockId env s.rows.edges viewerId link.source link.target with
  | .none => .ok s
  | .some noteId => .ok { s with rows := removeNoteBlock (env.dossiers noteId) viewerId noteId s.rows }

/-- `create_link`, of which only the graph and the memos are written. -/
def createLinkRow (sha : Sha256) (env : LinkNoteEnv) (viewerId : Uuid) (request : CreateLinkRequest) (s : LinkState B R) :
    Except Abort (LinkState B R × CreateLinkOut) :=
  (createLink sha env.toLinkEnv viewerId request ⟨s.rows.edges, s.links⟩).map fun r =>
    ({ s with rows := { s.rows with edges := r.1.edges }, links := r.1.mutations }, r.2)

/-- `delete_link`: view states go with the edges they hang on. -/
def deleteLinkRow (viewerId linkId : Uuid) (s : LinkState B R) : Except Abort (LinkState B R) :=
  (deleteLink viewerId linkId s.rows.edges).map fun edges =>
    let gone (v : ResourceViewState) : Bool := v.edgeId.any fun id =>
      s.rows.edges.rows.any fun e => e.id == id && !edges.rows.contains e
    { s with rows := { s.rows with edges, viewStates := s.rows.viewStates.deleteWhere gone } }

end Commands

/-! ## Runs -/

inductive LinkCommand (B : Type)
  | createLink (request : CreateLinkRequest)
  | putLinkNote (linkId : Uuid) (request : PutLinkNoteRequest B)
  | deleteLinkNote (linkId : Uuid)
  | deleteLink (linkId : Uuid)

structure LinkCall (B : Type) where
  env : LinkNoteEnv
  command : LinkCommand B

section Runs

variable {B R : Type} [NoteBody B] [DecidableEq B]

/-- The state a call commits, if it commits. -/
def LinkCall.run (sha : Sha256) (viewerId : Uuid) (call : LinkCall B) (s : LinkState B R) : Except Abort (LinkState B R) :=
  match call.command with
  | .createLink request => (createLinkRow sha call.env viewerId request s).map Prod.fst
  | .putLinkNote linkId request => (putLinkNote sha call.env viewerId linkId request s).map Prod.fst
  | .deleteLinkNote linkId => deleteLinkNote call.env viewerId linkId s
  | .deleteLink linkId => deleteLinkRow viewerId linkId s

/-- The rows, and the note last put through each Link and not deleted since. -/
structure Tracked (B R : Type) extends LinkState B R where
  lastPut : Uuid → Option Uuid

omit [NoteBody B] [DecidableEq B] in
/-- What a committed call makes of the notes put. A replay of a put is no other
put, and a Link just created has had none. -/
def LinkCall.track (viewerId : Uuid) (call : LinkCall B) (s : Tracked B R) : Uuid → Option Uuid :=
  match call.command with
  | .createLink _ => fun id => if (getOwnedEdge s.rows.edges viewerId id).isSome then s.lastPut id else .none
  | .putLinkNote linkId request =>
    match s.linkNotes.find? (linkNoteKey viewerId linkId request.clientMutationId) with
    | .none => Function.update s.lastPut linkId (.some request.noteBlockId)
    | .some _ => s.lastPut
  | .deleteLinkNote linkId | .deleteLink linkId => Function.update s.lastPut linkId .none

/-- The state once the call is over. -/
def LinkCall.after (sha : Sha256) (viewerId : Uuid) (call : LinkCall B) (s : Tracked B R) : Tracked B R :=
  match call.run sha viewerId s.toLinkState with
  | .ok t => ⟨t, call.track viewerId s⟩
  | .error _ => s

/-- The viewer has no Link note yet, Links are stored as `create_link` stores
them, and whoever has a Link note owns it. -/
structure Unnoted (viewerId : Uuid) (s : Tracked B R) : Prop where
  canonical : ∀ e ∈ s.rows.edges.rows, e.userId = viewerId → e.isNeutralLinkShape = true → e.source.le e.target = true
  none : ∀ e ∈ s.rows.edges.rows, e.userId = viewerId → e.origin ≠ .linkNote
  owned : ∀ e ∈ s.rows.edges.rows, e.origin = .linkNote →
    ∃ block ∈ s.rows.notes.rows, e.source = noteRef block.id ∧ block.userId = e.userId
  lastPut : s.lastPut = fun _ => .none

end Runs

end Nexus.Notes
