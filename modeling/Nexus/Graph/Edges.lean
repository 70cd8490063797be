/-
The resource graph: references, capabilities, the `resource_edges` table under
its constraints, and the edge writes of `resource_graph/edges.py`.

An edge is one directed row. Edges of every origin share the table, and which
of them a unique index tells apart depends on their shape: a neutral Link, a
stance, an ordered occurrence, a citation or a machine's bare edge.
`created_at`, which only orders pages of connections, is left out, and of a
snapshot only the excerpt is kept, which is all a constraint reads.
-/
import Nexus.Primitives
import Nexus.Lib.Constrained
import Nexus.Lib.ExceptFacts
import Mathlib.Data.Char
import Mathlib.Data.List.Lex

namespace Nexus.Graph
open Relational ExceptFacts

/-! ## References -/

inductive ResourceScheme
  | media
  | library
  | evidenceSpan
  | contentChunk
  | highlight
  | page
  | noteBlock
  | fragment
  | conversation
  | message
  | oracleReading
  | oraclePassageAnchor
  | artifact
  | artifactRevision
  | externalSnapshot
  | contributor
  | podcast
  | readerApparatusItem
  | passageAnchor
  deriving DecidableEq, Repr

def ResourceScheme.all : List ResourceScheme :=
  [.media, .library, .evidenceSpan, .contentChunk, .highlight, .page, .noteBlock, .fragment, .conversation, .message,
    .oracleReading, .oraclePassageAnchor, .artifact, .artifactRevision, .externalSnapshot, .contributor, .podcast,
    .readerApparatusItem, .passageAnchor]

def ResourceScheme.value : ResourceScheme → Text
  | .media => "media".toList
  | .library => "library".toList
  | .evidenceSpan => "evidence_span".toList
  | .contentChunk => "content_chunk".toList
  | .highlight => "highlight".toList
  | .page => "page".toList
  | .noteBlock => "note_block".toList
  | .fragment => "fragment".toList
  | .conversation => "conversation".toList
  | .message => "message".toList
  | .oracleReading => "oracle_reading".toList
  | .oraclePassageAnchor => "oracle_passage_anchor".toList
  | .artifact => "artifact".toList
  | .artifactRevision => "artifact_revision".toList
  | .externalSnapshot => "external_snapshot".toList
  | .contributor => "contributor".toList
  | .podcast => "podcast".toList
  | .readerApparatusItem => "reader_apparatus_item".toList
  | .passageAnchor => "passage_anchor".toList

structure ResourceRef where
  scheme : ResourceScheme
  id : Uuid
  deriving DecidableEq, Repr

/-- `ref.uri` -/
def ResourceRef.uri (ref : ResourceRef) : Text := ref.scheme.value ++ ':' :: uuidStr ref.id

/-- `parse_resource_ref`, a failure being none: a known scheme, a colon and the
text `str` gives a uuid. -/
def parseResourceRef (raw : Text) : Option ResourceRef :=
  match raw.dropWhile (· ≠ ':') with
  | [] => .none
  | _ :: ident =>
    (ResourceScheme.all.find? fun scheme => scheme.value == raw.takeWhile (· ≠ ':')).bind fun scheme =>
      (UuidBytes.parse ident).bind fun uuid => if uuid.str = ident then .some ⟨scheme, uuid.toNat⟩ else .none

/-- `(x.scheme, str(x.id)) <= (y.scheme, str(y.id))`. The text of a uuid is 32
lowercase hexadecimal digits, so two of them compare as the uuids do. -/
def ResourceRef.le (x y : ResourceRef) : Bool :=
  if x.scheme = y.scheme then decide (x.id ≤ y.id) else decide (x.scheme.value < y.scheme.value)

theorem ResourceRef.le_total (x y : ResourceRef) : x.le y = true ∨ y.le x = true := by
  unfold ResourceRef.le
  by_cases h : x.scheme = y.scheme
  · simp only [h, if_true, decide_eq_true_eq]
    exact Nat.le_total _ _
  · simp only [if_neg h, if_neg (Ne.symm h), decide_eq_true_eq]
    have hne : x.scheme.value ≠ y.scheme.value := by
      intro hv
      revert h hv
      cases x.scheme <;> cases y.scheme <;> decide
    exact lt_or_gt_of_ne hne

theorem ResourceRef.le_antisymm {x y : ResourceRef} (hxy : x.le y = true) (hyx : y.le x = true) : x = y := by
  unfold ResourceRef.le at hxy hyx
  by_cases h : x.scheme = y.scheme
  · simp only [h, if_true, decide_eq_true_eq] at hxy hyx
    obtain ⟨sx, ix⟩ := x
    obtain ⟨sy, iy⟩ := y
    have hid : ix = iy := Nat.le_antisymm hxy hyx
    rw [show sx = sy from h, hid]
  · simp only [if_neg h, if_neg (Ne.symm h), decide_eq_true_eq] at hxy hyx
    exact absurd (lt_trans hxy hyx) (lt_irrefl _)

/-! ## Capabilities -/

inductive UserLinkTargetMode
  | none
  | direct
  | materializePassage
  deriving DecidableEq, Repr

/-- What the graph reads of a `ResourceItemCapability`. -/
structure ResourceItemCapability where
  userLinkSource : Bool
  userLinkTarget : UserLinkTargetMode
  citationOutputSource : Bool
  adjacencySource : Bool
  adjacencyTarget : Bool
  deriving DecidableEq, Repr

def capabilityForScheme : ResourceScheme → ResourceItemCapability
  | .media => ⟨true, .direct, false, false, true⟩
  | .library => ⟨true, .direct, false, false, true⟩
  | .evidenceSpan => ⟨false, .materializePassage, false, false, true⟩
  | .contentChunk => ⟨false, .materializePassage, false, false, true⟩
  | .highlight => ⟨true, .direct, false, false, true⟩
  | .page => ⟨true, .direct, false, true, true⟩
  | .noteBlock => ⟨true, .direct, false, true, true⟩
  | .fragment => ⟨false, .materializePassage, false, false, true⟩
  | .conversation => ⟨true, .direct, false, false, true⟩
  | .message => ⟨true, .direct, true, false, true⟩
  | .oracleReading => ⟨true, .direct, true, false, true⟩
  | .oraclePassageAnchor => ⟨false, .materializePassage, false, false, true⟩
  | .artifact => ⟨true, .direct, false, false, true⟩
  | .artifactRevision => ⟨true, .direct, true, false, true⟩
  | .externalSnapshot => ⟨false, .none, false, false, false⟩
  | .contributor => ⟨true, .direct, false, false, true⟩
  | .podcast => ⟨true, .direct, false, false, true⟩
  | .readerApparatusItem => ⟨false, .materializePassage, false, false, true⟩
  | .passageAnchor => ⟨true, .direct, false, false, true⟩

def resourceCanLinkSource (ref : ResourceRef) : Bool := (capabilityForScheme ref.scheme).userLinkSource

def resourceUserLinkTargetMode (ref : ResourceRef) : UserLinkTargetMode :=
  (capabilityForScheme ref.scheme).userLinkTarget

def resourceCanLinkTarget (ref : ResourceRef) : Bool := resourceUserLinkTargetMode ref == .direct

def resourceCanOwnOrderedAdjacency (ref : ResourceRef) : Bool := (capabilityForScheme ref.scheme).adjacencySource

def resourceCanBeOrderedAdjacencyTarget (ref : ResourceRef) : Bool := (capabilityForScheme ref.scheme).adjacencyTarget

def resourceCanBeCitationOutputSource (ref : ResourceRef) : Bool :=
  (capabilityForScheme ref.scheme).citationOutputSource

/-! ## Edges -/

inductive EdgeKind
  | context
  | supports
  | contradicts
  deriving DecidableEq, Repr

inductive EdgeOrigin
  | user
  | citation
  | system
  | noteBody
  | highlightNote
  | synapse
  | documentEmbed
  | assistant
  | linkNote
  deriving DecidableEq, Repr

structure CitationSnapshot where
  excerpt : Option Text
  deriving DecidableEq, Repr

structure EdgeCreate where
  source : ResourceRef
  target : ResourceRef
  kind : EdgeKind
  origin : EdgeOrigin
  sourceOrderKey : Option Text := .none
  targetOrderKey : Option Text := .none
  ordinal : Option Int := .none
  snapshot : Option CitationSnapshot := .none
  deriving DecidableEq, Repr

/-- A row of `resource_edges`. -/
structure ResourceEdge extends EdgeCreate where
  id : Uuid
  userId : Uuid
  deriving DecidableEq, Repr

/-- No ordinal, snapshot or order key. -/
def EdgeCreate.bare (e : EdgeCreate) : Bool :=
  e.ordinal.isNone && e.snapshot.isNone && e.sourceOrderKey.isNone && e.targetOrderKey.isNone

def EdgeCreate.isNeutralLinkShape (e : EdgeCreate) : Bool := e.origin == .user && e.kind == .context && e.bare

/-- The predicate of `uq_resource_edges_user_stance_directed_pair`. -/
def EdgeCreate.isStanceShape (e : EdgeCreate) : Bool := e.origin == .user && e.kind != .context && e.bare

/-- What `ordered_edges` selects of one source. -/
def EdgeCreate.isOrdered (e : EdgeCreate) : Bool :=
  e.origin == .user && e.kind == .context && e.sourceOrderKey.isSome && e.ordinal.isNone && e.snapshot.isNone

/-- `btrim(snapshot->>'excerpt') <> ''` -/
def CitationSnapshot.hasExcerpt (s : CitationSnapshot) : Bool := (s.excerpt.getD []).any (· ≠ ' ')

def unordered (e : EdgeCreate) : Bool := e.sourceOrderKey.isNone && e.targetOrderKey.isNone

/-- The `CHECK` constraints of the table. -/
def EdgeCreate.checks (e : EdgeCreate) : Bool :=
  -- no_self_edge
  e.source != e.target &&
  -- source_order_key_length
  (match e.sourceOrderKey with
    | .none => true
    | .some k => decide (1 ≤ k.length ∧ k.length ≤ 64)) &&
  -- source_order_key_shape
  (e.sourceOrderKey.isNone ||
    e.kind == .context && e.ordinal.isNone && e.snapshot.isNone &&
      (e.origin == .user || (e.origin == .citation || e.origin == .system) && e.source.scheme == .conversation)) &&
  -- target_order_key_reserved
  e.targetOrderKey.isNone &&
  -- synapse_snapshot_excerpt, synapse_shape
  (e.origin != .synapse ||
    (match e.snapshot with
      | .none => false
      | .some s => s.hasExcerpt) &&
    e.source.scheme ∈ [.media, .page, .noteBlock, .highlight] && e.target.scheme ∈ [.media, .noteBlock, .evidenceSpan] &&
    unordered e && e.ordinal.isNone) &&
  -- citation_shape
  (e.origin != .citation ||
    e.ordinal.isNone && e.kind == .context && e.source.scheme == .conversation && e.snapshot.isNone ||
    e.ordinal.isSome && e.source.scheme ∈ [.message, .oracleReading, .artifactRevision]) &&
  -- system_shape
  (e.origin != .system ||
    e.kind == .context && e.source.scheme == .conversation && e.ordinal.isNone && e.snapshot.isNone) &&
  -- note_body_shape
  (e.origin != .noteBody || e.kind == .context && e.source.scheme == .noteBlock && e.bare) &&
  -- ordinal_positive
  (match e.ordinal with
    | .none => true
    | .some n => decide (1 ≤ n)) &&
  -- citation_has_snapshot
  (e.ordinal.isNone || e.snapshot.isSome) &&
  -- snapshot_has_ordinal, snapshot_origin
  (e.snapshot.isNone || (e.ordinal.isSome || e.origin ∈ [.synapse, .assistant]) &&
    e.origin ∈ [.citation, .synapse, .assistant]) &&
  -- assistant_snapshot_excerpt, assistant_shape
  (e.origin != .assistant ||
    (match e.snapshot with
      | .none => false
      | .some s => s.hasExcerpt) &&
    e.source.scheme ∈ [.media, .page, .noteBlock, .highlight] &&
    e.target.scheme ∈ [.media, .page, .noteBlock, .highlight] && unordered e && e.ordinal.isNone) &&
  -- ordinal_origin, citation_no_order
  (e.ordinal.isNone || e.origin == .citation && unordered e) &&
  -- highlight_note_shape
  (e.origin != .highlightNote ||
    e.kind == .context && e.source.scheme == .highlight && e.target.scheme == .noteBlock && e.bare)

def ResourceEdge.sameSource (e f : ResourceEdge) : Bool := e.userId == f.userId && e.source == f.source

/-- Same viewer, same directed pair. -/
def ResourceEdge.samePair (e f : ResourceEdge) : Bool := e.sameSource f && e.target == f.target

/-- Two rows one unique index holds under one key. -/
def ResourceEdge.clash (e f : ResourceEdge) : Bool :=
  -- uq_resource_edges_citation_ordinal
  e.ordinal.isSome && e.ordinal == f.ordinal && e.sameSource f ||
  -- uq_resource_edges_user_context_link_pair
  e.isNeutralLinkShape && f.isNeutralLinkShape && e.samePair f ||
  -- uq_resource_edges_user_stance_directed_pair
  e.isStanceShape && f.isStanceShape && e.samePair f ||
  -- uq_resource_edges_nonuser_orderless_pair
  e.origin != .user && e.origin == f.origin && e.ordinal.isNone && f.ordinal.isNone && unordered e.toEdgeCreate &&
    unordered f.toEdgeCreate && e.samePair f ||
  -- uq_resource_edges_source_order
  e.sourceOrderKey.isSome && e.sourceOrderKey == f.sourceOrderKey && e.sameSource f

def edgeSchema : Schema ResourceEdge Uuid := ⟨ResourceEdge.id, fun e => e.checks, ResourceEdge.clash⟩

/-- The table `resource_edges`. -/
abbrev Edges := Store edgeSchema

theorem eq_of_id {s : Edges} {e f : ResourceEdge} (he : e ∈ s.rows) (hf : f ∈ s.rows) (h : e.id = f.id) : e = f :=
  have hkey : edgeSchema.key e = edgeSchema.key f := h
  Table.eq_of_key he hf hkey

/-- A user edge of another kind than context carries no ordinal, snapshot or
order key. -/
theorem EdgeCreate.bare_of_stance {e : EdgeCreate} (h : e.checks = true) (ho : e.origin = .user)
    (hk : e.kind ≠ .context) : e.bare = true := by
  obtain ⟨source, target, kind, origin, sourceKey, targetKey, ordinal, snapshot⟩ := e
  cases ho
  revert h
  cases sourceKey <;> cases targetKey <;> cases ordinal <;> cases snapshot <;>
    simp_all [EdgeCreate.checks, EdgeCreate.bare, unordered]

/-! ## Edge writes -/

/-- What a request reads outside the graph. -/
structure GraphView where
  /-- `not resolve_ref(ref).missing` -/
  visible : ResourceRef → Bool
  /-- the id the `INSERT` would draw -/
  newEdgeId : Uuid

def invalidRequest (message : String) : Abort := .api ⟨.invalidRequest, message⟩

def assertRefVisible (w : GraphView) (ref : ResourceRef) : Except Abort Unit :=
  if w.visible ref then .ok () else .error (.api ⟨.notFound, "Resource not found"⟩)

def scalarOneOrNone {α : Type} : List α → Except Abort (Option α)
  | [] => .ok .none
  | [a] => .ok (.some a)
  | _ => .error .defect

section Policy

def edgeKinds : List EdgeKind := [.context, .supports, .contradicts]

/-- `EDGE_SHAPE_POLICIES[origin].allowed_kinds` -/
def allowedKinds : EdgeOrigin → List EdgeKind
  | .user | .citation | .synapse | .assistant => edgeKinds
  | .system | .noteBody | .highlightNote | .documentEmbed | .linkNote => [.context]

/-- `_scheme_allowed(scheme, policy.source_schemes)`, of the origins that get this far. -/
def sourceSchemeAllowed (scheme : ResourceScheme) : EdgeOrigin → Bool
  | .system => scheme == .conversation
  | .noteBody | .linkNote => scheme == .noteBlock
  | .highlightNote => scheme == .highlight
  | .documentEmbed => scheme == .media
  | .user | .citation | .synapse | .assistant => true

/-- `_scheme_allowed(scheme, policy.target_schemes)` -/
def targetSchemeAllowed (scheme : ResourceScheme) : EdgeOrigin → Bool
  | .highlightNote => scheme == .noteBlock
  | .documentEmbed => scheme == .media
  | .user | .citation | .synapse | .assistant | .system | .noteBody | .linkNote => true

/-- `origin` as it is written in a message. -/
def EdgeOrigin.value : EdgeOrigin → String
  | .user => "user"
  | .citation => "citation"
  | .system => "system"
  | .noteBody => "note_body"
  | .highlightNote => "highlight_note"
  | .synapse => "synapse"
  | .documentEmbed => "document_embed"
  | .assistant => "assistant"
  | .linkNote => "link_note"

def shapeMessage : EdgeOrigin → String
  | .highlightNote => "Highlight note edges must connect highlight to note_block"
  | .noteBody => "Note body edges must start from note_block"
  | .system => "System edges must be conversation context refs"
  | .documentEmbed => "Document embed edges must connect media to media"
  | _ => "Invalid edge shape"

/-- `str.strip` leaves something; the excerpts' whitespace is ASCII's. -/
def CitationSnapshot.excerptNonBlank (s : CitationSnapshot) : Bool :=
  (s.excerpt.getD []).any fun c => !c.isWhitespace

def allowsSourceOrder (e : EdgeCreate) : Bool :=
  if e.origin = .user then e.kind == .context && e.ordinal.isNone && e.snapshot.isNone
  else e.origin ∈ [.citation, .system] && e.kind == .context && e.source.scheme == .conversation && e.ordinal.isNone &&
    e.snapshot.isNone

def keyLengthOk (key : Option Text) : Bool :=
  match key with
  | .none => true
  | .some key => decide (1 ≤ key.length ∧ key.length ≤ 64)

def validateCitation (e : EdgeCreate) : Except Abort Unit :=
  match e.ordinal with
  | .none =>
    if e.snapshot.isSome then .error (invalidRequest "Only ordinal citation edges can carry citation snapshots")
    else if e.kind ≠ .context ∨ e.source.scheme ≠ .conversation then
      .error (invalidRequest "Bare citation edges must be conversation context refs")
    else .ok ()
  | .some ordinal =>
    if e.snapshot.isNone then .error (invalidRequest "Citation ordinal requires a snapshot")
    else if !resourceCanBeCitationOutputSource e.source then
      .error (invalidRequest "Citation ordinals must start from a generated output resource")
    else if e.sourceOrderKey.isSome ∨ e.targetOrderKey.isSome then
      .error (invalidRequest "Citation edges cannot carry order keys")
    else if ordinal < 1 then .error (invalidRequest "Citation ordinal must be >= 1")
    else .ok ()

def validateSynapse (e : EdgeCreate) : Except Abort Unit :=
  if e.source.scheme ∉ [ResourceScheme.media, .page, .noteBlock, .highlight] then
    .error (invalidRequest "Synapse edges must start from media, page, note_block, or highlight")
  else if e.target.scheme ∉ [ResourceScheme.media, .noteBlock, .evidenceSpan] then
    .error (invalidRequest "Synapse edges must target media or note_block")
  else match e.snapshot with
    | .none => .error (invalidRequest "Synapse edges require a rationale snapshot")
    | .some s => if s.excerptNonBlank then .ok ()
      else .error (invalidRequest "Synapse snapshots require a non-empty excerpt")

def validateAssistant (e : EdgeCreate) : Except Abort Unit :=
  let schemes := [ResourceScheme.media, .page, .noteBlock, .highlight]
  if e.source.scheme ∉ schemes ∨ e.target.scheme ∉ schemes then
    .error (invalidRequest "Assistant edges must connect media, page, note_block, or highlight")
  else if e.sourceOrderKey.isSome ∨ e.targetOrderKey.isSome then
    .error (invalidRequest "Assistant edges cannot carry order keys")
  else match e.snapshot with
    | .none => .error (invalidRequest "Assistant edges require a rationale snapshot")
    | .some s => if s.excerptNonBlank then .ok ()
      else .error (invalidRequest "Assistant snapshots require a non-empty excerpt")

def validateEdgeShape (e : EdgeCreate) : Except Abort Unit :=
  if e.source = e.target then .error (invalidRequest "An edge cannot relate a resource to itself")
  else if e.targetOrderKey.isSome then
    .error (invalidRequest "Target order keys are reserved until multi-occurrence blocks ship")
  else if !keyLengthOk e.sourceOrderKey then .error (invalidRequest "source_order_key must be 1-64 characters")
  else if e.sourceOrderKey.isSome ∧ allowsSourceOrder e = false then
    .error (invalidRequest "Source order key is not valid for this edge shape")
  else if e.origin = .citation then validateCitation e
  else if e.ordinal.isSome then .error (invalidRequest "Only citation edges can carry ordinals")
  else if e.snapshot.isSome ∧ e.origin ∉ [EdgeOrigin.synapse, .assistant] then
    .error (invalidRequest "Only citation, synapse, and assistant edges can carry snapshots")
  else if e.origin = .synapse then validateSynapse e
  else if e.origin = .assistant then validateAssistant e
  else if e.kind ∉ allowedKinds e.origin then
    .error (invalidRequest (e.origin.value ++ " edges must use kind=context"))
  else if !(sourceSchemeAllowed e.source.scheme e.origin && targetSchemeAllowed e.target.scheme e.origin) then
    .error (invalidRequest (shapeMessage e.origin))
  else .ok ()

end Policy

def validateEdgeInput (w : GraphView) (e : EdgeCreate) : Except Abort Unit := do
  validateEdgeShape e
  if e.isNeutralLinkShape ∧ (resourceCanLinkSource e.source = false ∨ resourceCanLinkTarget e.target = false) then
    .error (invalidRequest "Resource cannot be linked")
  else
    if e.target.scheme ≠ .externalSnapshot then assertRefVisible w e.target
    if e.ordinal.isNone then assertRefVisible w e.source

def ResourceEdge.joins (e : ResourceEdge) (a b : ResourceRef) : Bool :=
  e.source == a && e.target == b || e.source == b && e.target == a

def existingLinkPair (s : Edges) (viewerId : Uuid) (a b : ResourceRef) : Except Abort (Option ResourceEdge) :=
  scalarOneOrNone (s.rows.filter fun e => e.userId == viewerId && e.isNeutralLinkShape && e.joins a b)

/-- `_existing_bare_pair_id` -/
def existingBarePair (s : Edges) (viewerId : Uuid) (e : EdgeCreate) : Except Abort (Option ResourceEdge) :=
  scalarOneOrNone (s.rows.filter fun f =>
    f.userId == viewerId && f.source == e.source && f.target == e.target && f.origin == e.origin && f.ordinal.isNone)

/-- `_existing_source_order_id` -/
def existingSourceOrder (s : Edges) (viewerId : Uuid) (source : ResourceRef) (orderKey : Text) :
    Except Abort (Option ResourceEdge) :=
  scalarOneOrNone (s.rows.filter fun f =>
    f.userId == viewerId && f.source == source && f.sourceOrderKey == .some orderKey)

/-- `_existing_ordinal_id` -/
def existingOrdinal (s : Edges) (viewerId : Uuid) (source : ResourceRef) (ordinal : Int) :
    Except Abort (Option ResourceEdge) :=
  scalarOneOrNone (s.rows.filter fun f => f.userId == viewerId && f.source == source && f.ordinal == .some ordinal)

/-- `db.add(row); db.flush()` -/
def flushInsert (s : Edges) (row : ResourceEdge) : Except Abort (Edges × ResourceEdge) :=
  match s.insert? row with
  | .none => .error .database
  | .some s => .ok (s, row)

/-- The lookups `create_edge` makes before it inserts an edge that is no neutral Link. -/
def refuseDuplicate (s : Edges) (viewerId : Uuid) (e : EdgeCreate) : Except Abort Unit :=
  match e.ordinal with
  | .none => do
    if e.origin ≠ .user then
      if (← existingBarePair s viewerId e).isSome then .error (invalidRequest "Edge already exists")
    match e.sourceOrderKey with
    | .none => .ok ()
    | .some orderKey =>
      if (← existingSourceOrder s viewerId e.source orderKey).isSome then
        .error (invalidRequest "Source order exists")
  | .some ordinal => do
    if (← existingOrdinal s viewerId e.source ordinal).isSome then
      .error (invalidRequest ("Citation ordinal " ++ toString ordinal ++ " already exists for " ++
        String.ofList e.source.uri))

def createEdge (w : GraphView) (viewerId : Uuid) (e : EdgeCreate) (s : Edges) : Except Abort (Edges × ResourceEdge) := do
  validateEdgeInput w e
  if e.origin = .user ∧ e.kind ≠ .context ∧ e.sourceOrderKey.isSome then
    .error (invalidRequest "Ordered adjacency must be written through the resource adjacency service")
  else if e.isNeutralLinkShape then
    match ← existingLinkPair s viewerId e.source e.target with
    | .some existing => .ok (s, existing)
    | .none => flushInsert s ⟨e, w.newEdgeId, viewerId⟩
  else
    refuseDuplicate s viewerId e
    flushInsert s ⟨e, w.newEdgeId, viewerId⟩

structure EdgeWrite where
  edge : ResourceEdge
  created : Bool
  deriving DecidableEq, Repr

/-- `edges.create_link`, of a pair already in canonical order. -/
def createLinkEdge (w : GraphView) (viewerId : Uuid) (source target : ResourceRef) (s : Edges) :
    Except Abort (Edges × EdgeWrite) := do
  match ← existingLinkPair s viewerId source target with
  | .some existing => .ok (s, ⟨existing, false⟩)
  | .none =>
    let (s, edge) ← createEdge w viewerId { source, target, kind := .context, origin := .user } s
    .ok (s, ⟨edge, true⟩)

def getOwnedEdge (s : Edges) (viewerId edgeId : Uuid) : Option ResourceEdge :=
  (s.toTable.find? edgeId).filter fun e => e.userId == viewerId

def deleteEdge (s : Edges) (viewerId edgeId : Uuid) : Except Abort Edges :=
  match getOwnedEdge s viewerId edgeId with
  | .none => .error (.api ⟨.notFound, "Edge not found"⟩)
  | .some _ => .ok (s.deleteWhere fun e => e.id == edgeId)

/-- The members `replace_edges_for_origin` writes: of those without an ordinal
one to a target, and no ordinal twice. -/
def distinctMembers (seenPairs : List ResourceRef) (seenOrdinals : List Int) :
    List EdgeCreate → Except Abort (List EdgeCreate)
  | [] => .ok []
  | e :: rest =>
    match e.ordinal with
    | .none =>
      if e.target ∈ seenPairs then distinctMembers seenPairs seenOrdinals rest
      else (distinctMembers (e.target :: seenPairs) seenOrdinals rest).map (e :: ·)
    | .some ordinal =>
      if ordinal ∈ seenOrdinals then
        .error (invalidRequest ("Duplicate citation ordinal " ++ toString ordinal ++ " in replace-set"))
      else (distinctMembers seenPairs (ordinal :: seenOrdinals) rest).map (e :: ·)

/-- `db.add` of every row, then one flush. -/
def insertRows (viewerId : Uuid) (newId : Nat → Uuid) (s : Edges) : Nat → List EdgeCreate → Except Abort Edges
  | _, [] => .ok s
  | i, e :: rest => do
    let (s, _) ← flushInsert s ⟨e, newId i, viewerId⟩
    insertRows viewerId newId s (i + 1) rest

/-- The checks `replace_edges_for_origin` makes of its members. -/
def validateMembers (w : GraphView) (source : ResourceRef) (origin : EdgeOrigin) : List EdgeCreate → Except Abort Unit
  | [] => .ok ()
  | e :: rest =>
    if e.source ≠ source ∨ e.origin ≠ origin then .error .defect
    else do
      validateEdgeInput w e
      validateMembers w source origin rest

def replaceEdgesForOrigin (w : GraphView) (newId : Nat → Uuid) (viewerId : Uuid) (source : ResourceRef)
    (origin : EdgeOrigin) (edges : List EdgeCreate) (s : Edges) : Except Abort Edges := do
  let members := edges.filter fun e => e.target ≠ source
  validateMembers w source origin members
  let rows ← distinctMembers [] [] members
  insertRows viewerId newId
    (s.deleteWhere fun e => e.userId == viewerId && e.source == source && e.origin == origin) 0 rows

/-! ## What a write leaves -/

section Writes

variable {w : GraphView} {viewerId : Uuid} {s t : Edges} {e : EdgeCreate} {row : ResourceEdge}

theorem scalarOneOrNone_eq_none {α : Type} {l : List α} : scalarOneOrNone l = .ok .none ↔ l = [] := by
  unfold scalarOneOrNone
  split <;> simp_all

theorem scalarOneOrNone_eq_some {α : Type} {l : List α} {a : α} : scalarOneOrNone l = .ok (.some a) ↔ l = [a] := by
  unfold scalarOneOrNone
  split <;> simp_all

theorem flushInsert_eq_ok {r : ResourceEdge} : flushInsert s row = .ok (t, r) ↔ s.insert? row = .some t ∧ r = row := by
  unfold flushInsert
  cases s.insert? row with
  | none => simp only [reduceCtorEq, false_and]
  | some s' => simp only [Except.ok.injEq, Prod.mk.injEq, Option.some.injEq, eq_comm]

theorem createEdge_ok (h : createEdge w viewerId e s = .ok (t, row)) :
    (e.isNeutralLinkShape = true ∧ existingLinkPair s viewerId e.source e.target = .ok (.some row) ∧ t = s) ∨
      (row = ⟨e, w.newEdgeId, viewerId⟩ ∧ s.insert? row = .some t) := by
  obtain ⟨_, -, h⟩ := bind_eq_ok.1 h
  obtain ⟨-, h⟩ := check_eq_ok.1 h
  split at h
  next hlink =>
    obtain ⟨found, hfound, h⟩ := bind_eq_ok.1 h
    cases found with
    | some existing =>
      cases h
      exact .inl ⟨hlink, hfound, rfl⟩
    | none =>
      obtain ⟨hinsert, rfl⟩ := flushInsert_eq_ok.1 h
      exact .inr ⟨rfl, hinsert⟩
  next =>
    obtain ⟨_, -, h⟩ := bind_eq_ok.1 h
    obtain ⟨hinsert, rfl⟩ := flushInsert_eq_ok.1 h
    exact .inr ⟨rfl, hinsert⟩

theorem getOwnedEdge_eq_some {edgeId : Uuid} :
    getOwnedEdge s viewerId edgeId = .some row ↔ row ∈ s.rows ∧ row.id = edgeId ∧ row.userId = viewerId := by
  unfold getOwnedEdge
  rw [Option.filter_eq_some_iff, Table.find?_eq_some, and_assoc]
  simp only [beq_iff_eq]
  rfl

theorem deleteEdge_eq_ok {edgeId : Uuid} :
    deleteEdge s viewerId edgeId = .ok t ↔
      (∃ row, getOwnedEdge s viewerId edgeId = .some row) ∧ t = s.deleteWhere fun e => e.id == edgeId := by
  unfold deleteEdge
  cases getOwnedEdge s viewerId edgeId with
  | none => simp only [reduceCtorEq, exists_false, false_and]
  | some row => simp only [Except.ok.injEq, Option.some.injEq, exists_eq', true_and, eq_comm]

theorem mem_distinctMembers {e : EdgeCreate} : ∀ {members rows : List EdgeCreate} {seenPairs seenOrdinals},
    distinctMembers seenPairs seenOrdinals members = .ok rows → e ∈ rows → e ∈ members
  | [], rows, _, _, h, he => by cases h; cases he
  | f :: rest, rows, _, _, h, he => by
    unfold distinctMembers at h
    have hkept : ∀ {seenPairs seenOrdinals}, (distinctMembers seenPairs seenOrdinals rest).map (f :: ·) = .ok rows →
        e ∈ f :: rest := by
      intro seenPairs seenOrdinals h
      obtain ⟨tail, htail, rfl⟩ := map_eq_ok.1 h
      rcases List.mem_cons.1 he with rfl | he
      · exact List.mem_cons_self
      · exact List.mem_cons_of_mem _ (mem_distinctMembers htail he)
    cases hordinal : f.ordinal with
    | none =>
      rw [hordinal] at h
      simp only at h
      split at h
      · exact List.mem_cons_of_mem _ (mem_distinctMembers h he)
      · exact hkept h
    | some ordinal =>
      rw [hordinal] at h
      exact hkept (check_eq_ok.1 h).2

theorem origin_of_validateMembers {source : ResourceRef} {origin : EdgeOrigin} :
    ∀ {members : List EdgeCreate}, validateMembers w source origin members = .ok () → ∀ e ∈ members, e.origin = origin
  | [], _ => by simp
  | f :: rest, h => by
    obtain ⟨hscope, h⟩ := check_eq_ok.1 h
    obtain ⟨_, -, h⟩ := bind_eq_ok.1 h
    have hrest := origin_of_validateMembers h
    simp only [not_or, not_not] at hscope
    simpa using ⟨hscope.2, hrest⟩

theorem filter_insertRows {p : ResourceEdge → Bool} {newId : Nat → Uuid} :
    ∀ {rows : List EdgeCreate} {s t : Edges} {i : Nat}, (∀ e ∈ rows, ∀ id, p ⟨e, id, viewerId⟩ = false) →
      insertRows viewerId newId s i rows = .ok t → t.rows.filter p = s.rows.filter p
  | [], s, t, _, _, h => by cases h; rfl
  | e :: rest, s, t, i, hp, h => by
    obtain ⟨⟨u, row⟩, hinsert, h⟩ := bind_eq_ok.1 h
    obtain ⟨hinsert, -⟩ := flushInsert_eq_ok.1 hinsert
    rw [filter_insertRows (fun f hf => hp f (List.mem_cons_of_mem _ hf)) h, (Store.insert?_eq_some.1 hinsert).2,
      List.filter_cons_of_neg (by simp [hp e List.mem_cons_self])]

theorem filter_replaceEdgesForOrigin {p : ResourceEdge → Bool} {newId : Nat → Uuid} {source : ResourceRef}
    {origin : EdgeOrigin} {edges : List EdgeCreate} (hp : ∀ row : ResourceEdge, row.origin = origin → p row = false)
    (h : replaceEdgesForOrigin w newId viewerId source origin edges s = .ok t) : t.rows.filter p = s.rows.filter p := by
  obtain ⟨_, hvalid, h⟩ := bind_eq_ok.1 h
  obtain ⟨rows, hrows, h⟩ := bind_eq_ok.1 h
  have horigin := origin_of_validateMembers hvalid
  rw [filter_insertRows (fun e he id => hp ⟨e, id, viewerId⟩ (horigin e (mem_distinctMembers hrows he))) h,
    Store.rows_deleteWhere, List.filter_filter]
  refine List.filter_congr fun e _ => ?_
  by_cases ho : e.origin = origin
  · simp [hp e ho]
  · simp [ho]

end Writes

end Nexus.Graph
