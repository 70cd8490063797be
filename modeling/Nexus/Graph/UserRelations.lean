/-
`resource_graph/user_relations.py`: a viewer's Links and stances, and the
cleanup of a Link's note.

Each command is one serializable transaction: it leaves the state its `.ok`
says, or, on `.error`, the state it found. Highlights, passage anchors and the
hydrated connection live outside the graph; what a command is told of them
comes in a `LinkEnv`. `resource_view_states`, which no command here reads, is
left out.
-/
import Nexus.Graph.Edges
import Nexus.Mutations.ReplayLedger
import Nexus.Lib.Run

namespace Nexus.Graph
open Relational Mutations Transition

/-! ## Requests -/

inductive LinkSource
  | resource (ref : Text)
  /-- a fragment or a PDF selection, materialized as a fresh Highlight -/
  | selection
  deriving DecidableEq, Repr

inductive LinkTarget
  | resource (ref : Text)
  | passage (candidateRef : Text)
  deriving DecidableEq, Repr

/-- `CreateLinkRequest`, with the canonical bytes of its dump. -/
structure CreateLinkRequest where
  clientMutationId : Text
  source : LinkSource
  target : LinkTarget
  requestBytes : Bytes
  deriving DecidableEq, Repr

/-- `CreateLinkOut`; the connection is the edge it hydrates. -/
structure CreateLinkOut where
  created : Bool
  createdSourceRef : Option Text
  connection : ResourceEdge
  deriving DecidableEq, Repr

inductive StanceKind
  | supports
  | contradicts
  deriving DecidableEq, Repr

def StanceKind.edgeKind : StanceKind → EdgeKind
  | .supports => .supports
  | .contradicts => .contradicts

structure PutStanceRequest where
  sourceRef : Text
  targetRef : Text
  kind : StanceKind
  deriving DecidableEq, Repr

structure Quote where
  exact : Text
  leading : Text
  trailing : Text
  deriving DecidableEq, Repr

/-- What a command is told of the tables around the graph. -/
structure LinkEnv extends GraphView where
  /-- the Highlight `create_fragment_highlight_in_txn` or its PDF twin makes -/
  createHighlight : Except Abort Uuid
  /-- `candidate_owner_and_quote` -/
  candidateOwnerAndQuote : ResourceRef → Except Abort (Option (ResourceRef × Text))
  /-- `get_highlight_for_visible_read_or_404` -/
  highlightQuote : Uuid → Except Abort Quote
  /-- the id of `passage_anchors.materialize_or_reuse` -/
  materializeOrReuse : ResourceRef → Quote → Except Abort Uuid
  /-- the hundred newest connections of the two endpoints hold the edge -/
  connectionListed : Bool

/-- The graph and the ledger of `resource_graph:link`. -/
structure GraphState where
  edges : Edges
  mutations : Ledger CreateLinkOut

def linkScope : Text := "resource_graph:link".toList

def linkKey (viewerId : Uuid) (request : CreateLinkRequest) : MutationKey :=
  ⟨viewerId, linkScope, request.clientMutationId⟩

/-! ## Source and target -/

/-- `_parse_ref`; the message shows the text as `repr` does where nothing is escaped. -/
def parseRef (raw : Text) : Except Abort ResourceRef :=
  match parseResourceRef raw with
  | .some ref => .ok ref
  | .none => .error (invalidRequest ("Invalid resource ref: '" ++ String.ofList raw ++
      "'. Expected '<scheme>:<uuid>'."))

def admitSource (w : GraphView) (ref : ResourceRef) : Except Abort Unit :=
  if !resourceCanLinkSource ref then .error (.api ⟨.linkCapability, "Resource cannot be a link source"⟩)
  else assertRefVisible w ref

def admitDirectTarget (w : GraphView) (ref : ResourceRef) : Except Abort Unit :=
  if resourceUserLinkTargetMode ref ≠ .direct then
    .error (.api ⟨.linkCapability, "Resource cannot be a link target"⟩)
  else assertRefVisible w ref

/-- `_resolve_link_source`: the source, and the Highlight made for it. -/
def resolveLinkSource (env : LinkEnv) : LinkSource → Except Abort (ResourceRef × Option ResourceRef)
  | .resource raw => do
    let ref ← parseRef raw
    admitSource env.toGraphView ref
    .ok (ref, .none)
  | .selection => do
    let highlightId ← env.createHighlight
    .ok (⟨.highlight, highlightId⟩, .some ⟨.highlight, highlightId⟩)

def resolveLinkTarget (env : LinkEnv) : LinkTarget → Except Abort ResourceRef
  | .resource raw => do
    let ref ← parseRef raw
    admitDirectTarget env.toGraphView ref
    .ok ref
  | .passage raw => do
    let candidate ← parseRef raw
    if resourceUserLinkTargetMode candidate ≠ .materializePassage then
      .error (invalidRequest "Target is not a passage candidate")
    else match ← env.candidateOwnerAndQuote candidate with
      | .none => .error (.api ⟨.linkTargetStale, "Passage candidate no longer exists"⟩)
      | .some (owner, exact) =>
        assertRefVisible env.toGraphView owner
        let anchorId ← env.materializeOrReuse owner ⟨exact, [], []⟩
        .ok ⟨.passageAnchor, anchorId⟩

def focusedStanceTarget (env : LinkEnv) (source target : ResourceRef) : Except Abort ResourceRef :=
  if source.scheme ≠ .highlight ∨ target.scheme ≠ .media then .ok target
  else do
    let quote ← env.highlightQuote source.id
    match env.materializeOrReuse target quote with
    | .ok anchorId => .ok ⟨.passageAnchor, anchorId⟩
    | .error (.api e) => if e.code = .linkTargetAmbiguous then .ok target else .error (.api e)
    | .error e => .error e

def canonicalPair (x y : ResourceRef) : ResourceRef × ResourceRef := if x.le y then (x, y) else (y, x)

def connectionForEdge (env : LinkEnv) (edge : ResourceEdge) : Except Abort ResourceEdge :=
  if env.connectionListed then .ok edge else .error .defect

/-! ## Links -/

/-- What `create_link` does when the request is not a replay. -/
def applyCreateLink (env : LinkEnv) (viewerId : Uuid) (request : CreateLinkRequest) (s : Edges) :
    Except Abort (Edges × CreateLinkOut × CreateLinkOut) := do
  let (source, createdSource) ← resolveLinkSource env request.source
  let target ← resolveLinkTarget env request.target
  if source = target then .error (.api ⟨.linkSelf, "A resource cannot be linked to itself"⟩)
  else
    let (a, b) := canonicalPair source target
    let (s, write) ← createLinkEdge env.toGraphView viewerId a b s
    let connection ← connectionForEdge env write.edge
    let response : CreateLinkOut := ⟨write.created, createdSource.map ResourceRef.uri, connection⟩
    .ok (s, response, response)

def createLink (sha : Sha256) (env : LinkEnv) (viewerId : Uuid) (request : CreateLinkRequest) (s : GraphState) :
    Except Abort (GraphState × CreateLinkOut) :=
  (memoized sha (linkKey viewerId request) request.requestBytes (fun _ response => .ok response)
    (applyCreateLink env viewerId request) (s.edges, s.mutations)).map fun r => (⟨r.1.1, r.1.2⟩, r.2)

/-- The note has a Link-note edge of the viewer to both `a` and `b`. -/
def carriesMotif (s : Edges) (viewerId : Uuid) (a b note : ResourceRef) : Bool :=
  let attached (target : ResourceRef) := s.rows.any fun e =>
    e.userId == viewerId && e.origin == .linkNote && e.source == note && e.target == target
  attached a && attached b

/-- `cleanup.detach_link_note_motif` -/
def detachLinkNoteMotif (viewerId : Uuid) (a b : ResourceRef) (s : Edges) : Edges :=
  s.deleteWhere fun e => e.origin == .linkNote && carriesMotif s viewerId a b e.source

def deleteLink (viewerId linkId : Uuid) (s : Edges) : Except Abort Edges :=
  match getOwnedEdge s viewerId linkId with
  | .none => .ok s
  | .some edge =>
    if edge.origin ≠ .user then .error (.api ⟨.forbidden, "Only user relations can be removed here"⟩)
    else if !edge.isNeutralLinkShape then .error (.api ⟨.notFound, "Link not found"⟩)
    else deleteEdge (detachLinkNoteMotif viewerId edge.source edge.target s) viewerId linkId

/-! ## Stances -/

/-- `_existing_stance_id` -/
def existingStance (s : Edges) (viewerId : Uuid) (a b : ResourceRef) : Except Abort (Option ResourceEdge) :=
  scalarOneOrNone (s.rows.filter fun e => e.userId == viewerId && e.isStanceShape && e.joins a b)

def replaceStance (env : LinkEnv) (viewerId : Uuid) (source target : ResourceRef) (kind : StanceKind) (s : Edges) :
    Except Abort (Edges × ResourceEdge) := do
  let input : EdgeCreate := { source, target, kind := kind.edgeKind, origin := .user }
  match ← existingStance s viewerId source target with
  | .none => createEdge env.toGraphView viewerId input s
  | .some prior =>
    if prior.source = source ∧ prior.target = target ∧ prior.kind = kind.edgeKind then .ok (s, prior)
    else
      let s ← deleteEdge s viewerId prior.id
      createEdge env.toGraphView viewerId input s

def putStance (env : LinkEnv) (viewerId : Uuid) (request : PutStanceRequest) (s : Edges) :
    Except Abort (Edges × ResourceEdge) := do
  let source ← parseRef request.sourceRef
  let targetInput ← parseRef request.targetRef
  admitSource env.toGraphView source
  admitDirectTarget env.toGraphView targetInput
  let target ← focusedStanceTarget env source targetInput
  if source = target then .error (.api ⟨.linkSelf, "A resource cannot take a stance on itself"⟩)
  else
    let (s, edge) ← replaceStance env viewerId source target request.kind s
    let connection ← connectionForEdge env edge
    .ok (s, connection)

def deleteStance (viewerId stanceId : Uuid) (s : Edges) : Except Abort Edges :=
  match getOwnedEdge s viewerId stanceId with
  | .none => .ok s
  | .some edge =>
    if edge.origin ≠ .user then .error (.api ⟨.forbidden, "Only user relations can be removed here"⟩)
    else if edge.kind = .context then .error (.api ⟨.notFound, "Stance not found"⟩)
    else deleteEdge s viewerId stanceId

/-! ## Runs -/

inductive RelationCommand
  | createLink (request : CreateLinkRequest)
  | deleteLink (linkId : Uuid)
  | putStance (request : PutStanceRequest)
  | deleteStance (stanceId : Uuid)
  deriving DecidableEq, Repr

structure RelationCall where
  viewerId : Uuid
  env : LinkEnv
  command : RelationCommand

/-- The state a call commits, if it commits. -/
def RelationCall.run (sha : Sha256) (call : RelationCall) (s : GraphState) : Except Abort GraphState :=
  match call.command with
  | .createLink request => (Graph.createLink sha call.env call.viewerId request s).map Prod.fst
  | .deleteLink linkId => (Graph.deleteLink call.viewerId linkId s.edges).map fun edges => { s with edges }
  | .putStance request =>
    (Graph.putStance call.env call.viewerId request s.edges).map fun r => { s with edges := r.1 }
  | .deleteStance stanceId => (Graph.deleteStance call.viewerId stanceId s.edges).map fun edges => { s with edges }

/-- The state once the call is over. -/
def RelationCall.after (sha : Sha256) (call : RelationCall) (s : GraphState) : GraphState :=
  match call.run sha s with
  | .ok t => t
  | .error _ => s

/-- No Link, no stance and no Link note has been written; edges of any other
shape may be there. -/
def NoRelations (s : Edges) : Prop :=
  ∀ e ∈ s.rows, e.isNeutralLinkShape = false ∧ e.isStanceShape = false ∧ e.origin ≠ .linkNote

/-- Calls of any viewers, one after the other. -/
def relationSystem (sha : Sha256) : System GraphState RelationCall :=
  .ofFun (fun s => NoRelations s.edges) fun s call => .some (call.after sha s)

end Nexus.Graph
