/-
Publication of an answer: its citation edges, the retrievals that point back to
them, and the text stored on the assistant message (`publish_chat_citations`,
`finalize_run`).

Publication runs on the live attempt of a run that is not terminal. The read
model of the citations it sends to the stream, the stream events and the
context references of the conversation are left out.
-/
import Nexus.Citations.Markers

namespace Nexus.Citations
open Relational Graph

/-! ## Citation edges -/

structure CitationInput where
  target : ResourceRef
  ordinal : Nat
  kind : EdgeKind
  snapshot : CitationSnapshot
  deriving DecidableEq, Repr

def citationEdge (source : ResourceRef) (c : CitationInput) : EdgeCreate where
  source := source
  target := c.target
  kind := c.kind
  origin := .citation
  ordinal := .some c.ordinal
  snapshot := .some c.snapshot

def denseCitationOrdinals (citations : List CitationInput) : Except Abort Unit :=
  if denseOrdinals (citations.map CitationInput.ordinal) then .ok ()
  else .error (invalidRequest ("Citation ordinals must be dense 1.." ++ toString citations.length ++ "; got " ++
    String.ofList (listText ((citations.map CitationInput.ordinal).insertionSort (· ≤ ·)))))

/-- The rows `replace_edges_for_origin` returns: one of every citation whose
target is not the source. -/
def replacedRows (newId : Nat → Uuid) (viewerId : Uuid) (source : ResourceRef) (edges : List EdgeCreate) :
    List ResourceEdge :=
  (edges.filter fun e => e.target ≠ source).mapIdx fun i e => ⟨e, newId i, viewerId⟩

def replaceCitationsForOutput (w : GraphView) (newId : Nat → Uuid) (viewerId : Uuid) (source : ResourceRef)
    (citations : List CitationInput) (s : Edges) : Except Abort (Edges × List ResourceEdge) := do
  denseCitationOrdinals citations
  let edges := citations.map (citationEdge source)
  let s ← replaceEdgesForOrigin w newId viewerId source .citation edges s
  .ok (s, replacedRows newId viewerId source edges)

/-! ## Publishing -/

/-- A retrieval of the run's answer; `citationTarget` is what its `result_ref`
names. -/
structure MessageRetrieval where
  id : Uuid
  citationCandidateOrdinal : Option Nat
  citationTarget : Option ResourceRef
  snapshot : CitationSnapshot
  citedEdgeId : Option Uuid
  deriving DecidableEq, Repr

/-- A run, its assistant message and what publication writes. -/
structure PublicationState where
  ownerUserId : Uuid
  assistantMessageId : Uuid
  terminal : Bool
  content : Text
  retrievals : Table MessageRetrieval MessageRetrieval.id
  edges : Edges

def PublicationState.messageRef (s : PublicationState) : ResourceRef := ⟨.message, s.assistantMessageId⟩

/-- The candidates of the run's retrievals. Their order is read by nothing. -/
def readCandidates : List MessageRetrieval → Except Abort (List CitationCandidate)
  | [] => .ok []
  | row :: rows =>
    match row.citationCandidateOrdinal with
    | .none => readCandidates rows
    | .some ordinal =>
      match row.citationTarget with
      | .none => .error .defect
      | .some target => (readCandidates rows).map (⟨ordinal, row.id, target, row.snapshot⟩ :: ·)

/-- `candidate_by_ordinal[ordinal]` -/
def candidateByOrdinal (candidates : List CitationCandidate) (ordinal : Nat) : Except Abort CitationCandidate :=
  match candidates.find? fun c => c.candidateOrdinal = ordinal with
  | .none => .error .defect
  | .some c => .ok c

def citationInput (candidates : List CitationCandidate) (citation : CanonicalCitation) : Except Abort CitationInput :=
  (candidateByOrdinal candidates citation.candidateOrdinal).map fun c =>
    ⟨c.target, citation.finalOrdinal, .context, c.snapshot⟩

def citationInputs (candidates : List CitationCandidate) : CanonicalCitationResult → Except Abort (List CitationInput)
  | .published _ citations => citations.mapM (citationInput candidates)
  | .degraded _ _ => .ok []

/-- `UPDATE message_retrievals SET cited_edge_id = NULL` -/
def clearCited (t : Table MessageRetrieval MessageRetrieval.id) : Table MessageRetrieval MessageRetrieval.id :=
  t.updateWhere (fun _ => true) fun row => { row with citedEdgeId := .none }

def setCited (t : Table MessageRetrieval MessageRetrieval.id) (retrievalId edgeId : Uuid) :
    Table MessageRetrieval MessageRetrieval.id :=
  t.updateWhere (fun row => row.id == retrievalId) fun row => { row with citedEdgeId := .some edgeId }

/-- The loop that points the cited retrievals back to their edges. -/
def pointBack (candidates : List CitationCandidate) :
    List (CanonicalCitation × ResourceEdge) → Table MessageRetrieval MessageRetrieval.id →
      Except Abort (Table MessageRetrieval MessageRetrieval.id)
  | [], t => .ok t
  | (citation, edge) :: rest, t => do
    let c ← candidateByOrdinal candidates citation.candidateOrdinal
    if (t.find? c.retrievalId).isNone then .error .defect
    else pointBack candidates rest (setCited t c.retrievalId edge.id)

/-- The back-pointers of a result whose edges are written. -/
def publishBackPointers (candidates : List CitationCandidate) (edges : List ResourceEdge)
    (t : Table MessageRetrieval MessageRetrieval.id) :
    CanonicalCitationResult → Except Abort (Table MessageRetrieval MessageRetrieval.id)
  | .degraded _ _ => .ok t
  | .published _ citations =>
    if edges = [] then .ok t
    else if edges.length ≠ citations.length then .error .defect
    else pointBack candidates (citations.zip edges) t

def publishChatCitations (w : GraphView) (newId : Nat → Uuid) (generatedMarkdown : Text) (s : PublicationState) :
    Except Abort (PublicationState × CanonicalCitationResult) := do
  let candidates ← readCandidates s.retrievals.rows
  let result ← canonicalizeChatCitations generatedMarkdown candidates
  let inputs ← citationInputs candidates result
  let (edges, rows) ← replaceCitationsForOutput w newId s.ownerUserId s.messageRef inputs s.edges
  let retrievals ← publishBackPointers candidates rows (clearCited s.retrievals) result
  .ok ({ s with edges, retrievals }, result)

/-! ## Storing the answer -/

def maxAssistantContentLength : Nat := 50000

def truncationNotice : Text := "\n\n[Response truncated due to length]".toList

/-- The text `finalize_run` stores of a complete answer. -/
def storedContent (assistantContent : Text) : Text :=
  if maxAssistantContentLength < assistantContent.length then
    assistantContent.take maxAssistantContentLength ++ truncationNotice
  else assistantContent

/-- `finalize_run` of a complete answer. -/
def finalizeRun (assistantContent : Text) (s : PublicationState) : PublicationState :=
  if s.terminal then s
  else { s with content := storedContent assistantContent, terminal := true }

def publishChatRun (w : GraphView) (newId : Nat → Uuid) (fullContent : Text) (s : PublicationState) :
    Except Abort (PublicationState × CanonicalCitationResult) := do
  let (s, result) ← publishChatCitations w newId fullContent s
  .ok (finalizeRun result.contentMd s, result)

end Nexus.Citations
