/-
`plan_content_index`: the blocks of a source cut and merged into chunks, with
their texts, locators and embeddings, and the parts that
`publish_content_index` writes of them.

A word is a match of `\S+`, and as many words are tokens. An over-long block is
cut into windows of its words, each overlapping the one before. A piece joins
the chunk before it if it continues the very text of it, at the same fragment,
page or note.

The model's name, its dimensions and what embeds a text are the provider's.
-/
import Mathlib.Data.Rat.Floor
import Nexus.Indexing.Blocks
import Nexus.Lib.Windows
import Nexus.Lib.WordRuns

namespace Nexus.Indexing
open WordRuns Windows

def chunkMaxTokens : Nat := 420

def chunkOverlapTokens : Nat := 60

/-! ## Pieces -/

/-- `re.finditer(r"\S+", text_value)` -/
def wordsOf (textValue : Text) : List (FindIter.Match Unit) := words isPythonSpace textValue

structure Piece where
  startOffset : Nat
  endOffset : Nat
  tokenCount : Nat
  deriving DecidableEq, Repr

/-- From the first word's start to the last word's end. -/
def pieceOf (words : List (FindIter.Match Unit)) : Piece :=
  ⟨words.head?.elim 0 FindIter.Match.start, words.getLast?.elim 0 FindIter.Match.stop, words.length⟩

def blockPieces (textValue : Text) : List Piece :=
  let words := wordsOf textValue
  if words.length ≤ chunkMaxTokens then [⟨0, textValue.length, words.length⟩]
  else (windows chunkMaxTokens (chunkMaxTokens - chunkOverlapTokens) words).map pieceOf

/-- A piece of a block: `(block, start_offset, end_offset, token_count)`. -/
structure Part where
  block : IndexableBlock
  piece : Piece
  deriving DecidableEq, Repr

def Part.text (p : Part) : Text := (p.block.canonicalText.take p.piece.endOffset).drop p.piece.startOffset

/-- The pieces of the blocks that are not blank, but those without a word. -/
def partsOf (blocks : List IndexableBlock) : List Part :=
  (blocks.filter fun block => !(pythonStrip block.canonicalText).isEmpty).flatMap fun block =>
    ((blockPieces block.canonicalText).filter fun piece => piece.tokenCount != 0).map (Part.mk block)

/-! ## Chunks -/

def separatorBefore (previousBlock : Option IndexableBlock) (block : IndexableBlock) : Text :=
  match previousBlock with
  | .none => []
  | .some previous => if previous.sourceEndOffset == block.sourceStartOffset then [] else ['\n', '\n']

def unsupportedKind (kind : LocatorKind) : String := "Unsupported locator kind: " ++ kind.value

def sameLocatorAnchor (left right : Locator) : Except String Bool :=
  match left.place, right.place with
  | .webText l, .webText r | .epubText l, .epubText r => .ok (l.fragmentId == r.fragmentId)
  | .pdfText l, .pdfText r => .ok (l.pageNumber == r.pageNumber)
  | .transcriptTimeText l, .transcriptTimeText r => .ok (l.tStartMs == r.tStartMs && l.tEndMs == r.tEndMs)
  | .noteText l, .noteText r => .ok (l.noteBlockId == r.noteBlockId)
  | .pdfTextQuote _, .pdfTextQuote _ => .error (unsupportedKind .pdfTextQuote)
  | _, _ => .ok false

/-- The chunks that are done, and the parts of the current one. -/
structure Chunking where
  chunks : List (List Part)
  currentParts : List Part
  currentTokens : Nat

/-- Whether a part starts a new chunk: the checks come in this order. -/
def startsChunk (currentTokens : Nat) (previous part : Part) : Except String Bool :=
  if currentTokens + part.piece.tokenCount > chunkMaxTokens then .ok true
  else do
    let same ← sameLocatorAnchor previous.block.locator part.block.locator
    .ok (!same || previous.piece.endOffset != previous.block.canonicalText.length || part.piece.startOffset != 0 ||
      !(separatorBefore (.some previous.block) part.block).isEmpty)

/-- One turn of the loop over the pieces. -/
def addPart (c : Chunking) (part : Part) : Except String Chunking :=
  match c.currentParts.getLast? with
  | .none => .ok { c with currentParts := [part], currentTokens := c.currentTokens + part.piece.tokenCount }
  | .some previous => do
    let starts ← startsChunk c.currentTokens previous part
    .ok (if starts then ⟨c.chunks ++ [c.currentParts], [part], part.piece.tokenCount⟩
      else { c with currentParts := c.currentParts ++ [part], currentTokens := c.currentTokens + part.piece.tokenCount })

/-- The loop, and the chunk that is left. -/
def chunkParts (parts : List Part) : Except String (List (List Part)) := do
  let c ← parts.foldlM addPart ⟨[], [], 0⟩
  .ok (if c.currentParts.isEmpty then c.chunks else c.chunks ++ [c.currentParts])

/-- `_chunk_text`, after a part of `previousBlock`. -/
def chunkTextFrom (previousBlock : Option IndexableBlock) : List Part → Text
  | [] => []
  | part :: parts => separatorBefore previousBlock part.block ++ part.text ++ chunkTextFrom (.some part.block) parts

def chunkText (parts : List Part) : Text := chunkTextFrom .none parts

/-! ## Locators of chunks -/

def Place.fragmentId? : Place → Option Text
  | .webText s | .epubText s => .some s.fragmentId
  | _ => .none

def Place.pageNumber? : Place → Option Int
  | .pdfText s | .pdfTextQuote s => .some s.pageNumber
  | _ => .none

/-- `int(str(locator.get("start_offset") or 0))` -/
def Place.startOffset : Place → Int
  | .webText s | .epubText s => s.startOffset
  | .noteText s => s.startOffset
  | _ => 0

def Place.pageTextStartOffset : Place → Int
  | .pdfText s | .pdfTextQuote s => s.pageTextStartOffset
  | _ => 0

def Place.plainTextStartOffset : Place → Int
  | .pdfText s | .pdfTextQuote s => s.plainTextStartOffset.getD 0
  | _ => 0

/-- `locator.get("t_end_ms")` of a transcript's block. -/
def Place.tEndMs (default : Int) : Place → Int
  | .transcriptTimeText s => s.tEndMs
  | _ => default

/-- A page without quads gets the band that the chunk's offsets have a share of. -/
def projectGeometry (g : Geometry) (pageStart fullPageTextEnd : Int) : Geometry :=
  if g.quads = [] ∧ 0 < fullPageTextEnd ∧ 0 < g.pageWidth ∧ 0 < g.pageHeight then
    let top : ℚ := max 0 (min g.pageHeight (g.pageHeight * pageStart / fullPageTextEnd))
    let highlightHeight : ℚ := max 8 (min 18 (g.pageHeight / 60))
    let bottom : ℚ := min g.pageHeight (top + highlightHeight)
    if top < bottom then
      let horizontalInset : ℚ := min 48 (g.pageWidth * (8 / 100))
      { g with
        projection := .some "proportional_text_offsets".toList
        quads := [(⟨horizontalInset, top⟩, ⟨g.pageWidth - horizontalInset, top⟩,
          ⟨g.pageWidth - horizontalInset, bottom⟩, ⟨horizontalInset, bottom⟩)] }
    else g
  else g

/-- The place of a chunk, from its first and last part. -/
def chunkPlace (first last : Part) (parts : List Part) : Except String Place :=
  let sameFragment := parts.all fun p => p.block.locator.place.fragmentId? == first.block.locator.place.fragmentId?
  let samePage := parts.all fun p => p.block.locator.place.pageNumber? == first.block.locator.place.pageNumber?
  let fragment (s : FragmentPlace) : FragmentPlace :=
    if sameFragment then
      { s with
        startOffset := s.startOffset + first.piece.startOffset
        endOffset := last.block.locator.place.startOffset + last.piece.endOffset }
    else s
  match first.block.locator.place with
  | .webText s => .ok (.webText (fragment s))
  | .epubText s => .ok (.epubText (fragment s))
  | .pdfText s => .ok (.pdfText (
    if samePage then
      let pageStart := s.pageTextStartOffset + first.piece.startOffset
      { s with
        pageTextStartOffset := pageStart
        pageTextEndOffset := last.block.locator.place.pageTextStartOffset + last.piece.endOffset
        plainTextStartOffset := .some (s.plainTextStartOffset.getD 0 + first.piece.startOffset)
        plainTextEndOffset := .some (last.block.locator.place.plainTextStartOffset + last.piece.endOffset)
        geometry := s.geometry.map fun g => projectGeometry g pageStart s.pageTextEndOffset }
    else s))
  | .transcriptTimeText s => .ok (.transcriptTimeText { s with tEndMs := last.block.locator.place.tEndMs s.tEndMs })
  | .noteText s => .ok (.noteText
    { s with startOffset := s.startOffset + first.piece.startOffset, endOffset := s.startOffset + last.piece.endOffset })
  | .pdfTextQuote _ => .error (unsupportedKind .pdfTextQuote)

/-- `_chunk_locator`: no chunk is empty. -/
def chunkLocator (parts : List Part) (text : Text) : Except String Locator :=
  match parts.head?, parts.getLast? with
  | .some first, .some last => do
    let place ← chunkPlace first last parts
    .ok ⟨place, text⟩
  | _, _ => .error "list index out of range"

/-! ## The plan -/

structure PlannedContentChunk (ε : Type) where
  parts : List Part
  text : Text
  locator : Locator
  embedding : List ε

def PlannedContentChunk.tokenCount {ε : Type} (c : PlannedContentChunk ε) : Nat := (c.parts.map fun p => p.piece.tokenCount).sum

structure ContentIndexPlan (ε : Type) where
  owner : IndexOwner
  sourceKind : SourceKind
  blocks : List IndexableBlock
  chunks : List (PlannedContentChunk ε)
  embeddingProvider : Text
  embeddingModel : Text
  embeddingDimensions : Nat

/-- The configured model, and `build_text_embeddings`. -/
structure EmbeddingService (ε : Type) where
  provider : Text
  model : Text
  dimensions : Nat
  buildTextEmbeddings : List Text → Text × List (List ε)

section Plan

variable {ε : Type} (isUuid : Text → Bool) (service : EmbeddingService ε)

def locateChunk (sourceKind : SourceKind) (parts : List Part) : Except String Locator := do
  let locator ← chunkLocator parts (chunkText parts)
  validateSelector isUuid (chunkText parts) "content chunk summary locator" sourceKind locator
  .ok locator

/-- The embeddings of the chunks' texts, none of which are asked for without a chunk. -/
def embedChunks (texts : List Text) : Except String (List (List ε)) :=
  if texts.isEmpty then .ok []
  else do
    let (returnedEmbeddingModel, embeddings) := service.buildTextEmbeddings texts
    require (returnedEmbeddingModel == service.model) "Embedding model changed during content indexing"
    require (embeddings.length == texts.length) "Embedding count does not match chunk count"
    require (embeddings.all fun embedding => embedding.length == service.dimensions)
      "Embedding dimensions do not match configured dimensions"
    .ok embeddings

def planContentIndex (owner : IndexOwner) (sourceKind : SourceKind) (blocks : List IndexableBlock) :
    Except String (ContentIndexPlan ε) := do
  validateBlocks isUuid owner sourceKind blocks
  let chunks ← chunkParts (partsOf blocks)
  let locators ← chunks.mapM (locateChunk isUuid sourceKind)
  let embeddings ← embedChunks service (chunks.map chunkText)
  .ok { owner, sourceKind, blocks
        chunks := (chunks.zip (locators.zip embeddings)).map fun (parts, locator, embedding) =>
          ⟨parts, chunkText parts, locator, embedding⟩
        embeddingProvider := service.provider
        embeddingModel := service.model
        embeddingDimensions := service.dimensions }

end Plan

/-! ## Published parts -/

/-- A row of `content_chunk_parts`. -/
structure ContentChunkPart where
  partIdx : Nat
  blockIdx : Int
  blockStartOffset : Nat
  blockEndOffset : Nat
  chunkStartOffset : Nat
  chunkEndOffset : Nat
  separatorBefore : Text
  deriving DecidableEq, Repr

/-- The rows of a chunk's parts, and the offset after the last of them. -/
def chunkPartRows : Nat → Nat → Option IndexableBlock → List Part → List ContentChunkPart × Nat
  | _, chunkOffset, _, [] => ([], chunkOffset)
  | partIdx, chunkOffset, previousBlock, part :: parts =>
    let separator := separatorBefore previousBlock part.block
    let chunkStartOffset := chunkOffset + separator.length
    let chunkEndOffset := chunkStartOffset + part.piece.endOffset - part.piece.startOffset
    let (rows, stop) := chunkPartRows (partIdx + 1) chunkEndOffset (.some part.block) parts
    (⟨partIdx, part.block.blockIdx, part.piece.startOffset, part.piece.endOffset, chunkStartOffset, chunkEndOffset, separator⟩ ::
      rows, stop)

/-- The rows that `publish_content_index` writes of a chunk, if they reconstruct its text. -/
def publishParts {ε : Type} (chunk : PlannedContentChunk ε) : Except String (List ContentChunkPart) := do
  let (rows, chunkOffset) := chunkPartRows 0 0 .none chunk.parts
  require (chunkOffset == chunk.text.length) "Chunk part offsets do not reconstruct chunk text"
  .ok rows

end Nexus.Indexing
