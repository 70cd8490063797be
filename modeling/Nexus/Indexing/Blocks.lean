/-
The blocks of a content index, and what `_validate_blocks` accepts of them
(`services/content_indexing.py`).

A locator is a dict in the source; here each kind of it has the fields that the
checks and the chunks read, so that a value of another type cannot be built.
Offsets are integers, which the checks keep from being negative. The numbers
of a page's geometry are rationals for floats: nothing is said about how they
round. Whether `UUID(text)` takes an id is any predicate of its text. Prefix
and suffix of a quote, headings, page labels, section ids and metadata, whose
checks are of their types, are left out.
-/
import Mathlib.Data.Rat.Defs
import Mathlib.Algebra.Order.Ring.Int
import Nexus.Primitives

namespace Nexus.Indexing

/-! ## Rows -/

inductive IndexOwnerKind
  | media
  | noteBlock
  deriving DecidableEq, Repr

structure IndexOwner where
  kind : IndexOwnerKind
  id : Uuid
  deriving DecidableEq, Repr

inductive SourceKind
  | webArticle
  | epub
  | pdf
  | transcript
  | note
  deriving DecidableEq, Repr

/-- A corner of a highlighted area of a page. -/
structure Corner where
  x : ℚ
  y : ℚ
  deriving DecidableEq, Repr

/-- `x1` to `y4` -/
abbrev Quad := Corner × Corner × Corner × Corner

structure Geometry where
  coordinateSpace : Text
  pageWidth : ℚ
  pageHeight : ℚ
  pageRotationDegrees : Int
  projection : Option Text
  quads : List Quad
  deriving DecidableEq, Repr

/-- `web_text` or `epub_text`, `pdf_text` or `pdf_text_quote`, `transcript_time_text`, `note_text`. -/
inductive LocatorKind
  | webText
  | epubText
  | pdfText
  | pdfTextQuote
  | transcriptTimeText
  | noteText
  deriving DecidableEq, Repr

def LocatorKind.value : LocatorKind → String
  | .webText => "web_text"
  | .epubText => "epub_text"
  | .pdfText => "pdf_text"
  | .pdfTextQuote => "pdf_text_quote"
  | .transcriptTimeText => "transcript_time_text"
  | .noteText => "note_text"

structure FragmentPlace where
  fragmentId : Text
  startOffset : Int
  endOffset : Int
  deriving DecidableEq, Repr

structure PdfPlace where
  pageNumber : Int
  physicalPageNumber : Option Int
  pageTextStartOffset : Int
  pageTextEndOffset : Int
  plainTextStartOffset : Option Int
  plainTextEndOffset : Option Int
  geometry : Option Geometry
  deriving DecidableEq, Repr

structure TranscriptPlace where
  tStartMs : Int
  tEndMs : Int
  deriving DecidableEq, Repr

structure NotePlace where
  noteBlockId : Text
  startOffset : Int
  endOffset : Int
  deriving DecidableEq, Repr

/-- A locator or a selector without its quote. -/
inductive Place
  | webText (place : FragmentPlace)
  | epubText (place : FragmentPlace)
  | pdfText (place : PdfPlace)
  | pdfTextQuote (place : PdfPlace)
  | transcriptTimeText (place : TranscriptPlace)
  | noteText (place : NotePlace)
  deriving DecidableEq, Repr

def Place.kind : Place → LocatorKind
  | .webText _ => .webText
  | .epubText _ => .epubText
  | .pdfText _ => .pdfText
  | .pdfTextQuote _ => .pdfTextQuote
  | .transcriptTimeText _ => .transcriptTimeText
  | .noteText _ => .noteText

structure Locator where
  place : Place
  /-- `text_quote.exact` -/
  exact : Text
  deriving DecidableEq, Repr

structure IndexableBlock where
  owner : IndexOwner
  sourceKind : SourceKind
  blockIdx : Int
  blockKind : Text
  canonicalText : Text
  extractionConfidence : Option ℚ
  sourceStartOffset : Int
  sourceEndOffset : Int
  locator : Locator
  selector : Locator
  deriving DecidableEq, Repr

/-! ## Validation -/

/-- A check that raises `ValueError` with this message. -/
def require (c : Bool) (message : String) : Except String Unit := if c then .ok () else .error message

/-- The end of a message about offsets that do not fit their text. -/
def offsetsOf (start stop : Int) (textValue : Text) : String :=
  "(start=" ++ toString start ++ ", end=" ++ toString stop ++ ", text_length=" ++ toString textValue.length ++ ")"

section Selectors

variable (isUuid : Text → Bool) (textValue : Text) (context : String)

def validateFragmentSelector (s : FragmentPlace) : Except String Unit := do
  require (isUuid s.fragmentId) (context ++ " fragment_id is invalid")
  require (0 ≤ s.startOffset && s.startOffset ≤ s.endOffset) (context ++ " offsets are invalid")
  require (s.endOffset - s.startOffset == textValue.length)
    (context ++ " offsets do not match text length " ++ offsetsOf s.startOffset s.endOffset textValue)

def validateNoteSelector (s : NotePlace) : Except String Unit := do
  require (isUuid s.noteBlockId) (context ++ " note_block_id is invalid")
  require (0 ≤ s.startOffset && s.startOffset ≤ s.endOffset) (context ++ " offsets are invalid")
  require (s.endOffset - s.startOffset == textValue.length)
    (context ++ " offsets do not match text length " ++ offsetsOf s.startOffset s.endOffset textValue)

def validatePdfGeometry (g : Geometry) : Except String Unit := do
  require (g.coordinateSpace == "pdf_points".toList) (context ++ " geometry coordinate_space is invalid")
  require (0 < g.pageWidth && 0 < g.pageHeight) (context ++ " geometry page size is invalid")
  require (0 ≤ g.pageRotationDegrees) (context ++ " geometry page_rotation_degrees is invalid")

/-- The offsets of a part of the plain text: both, of the text's length, or neither. -/
def validatePlainOffsets : Option Int → Option Int → Except String Unit
  | .none, .none => .ok ()
  | .some plainStart, .some plainEnd =>
    require (0 ≤ plainStart && plainStart ≤ plainEnd && plainEnd - plainStart == textValue.length)
      (context ++ " plain text offsets are invalid")
  | _, _ => .error (context ++ " plain text offsets must be integers")

def validatePdfSelector (s : PdfPlace) : Except String Unit := do
  require (1 ≤ s.pageNumber) (context ++ " page_number is invalid")
  require (s.physicalPageNumber.all fun n => 1 ≤ n) (context ++ " physical_page_number is invalid")
  require (0 ≤ s.pageTextStartOffset && s.pageTextStartOffset ≤ s.pageTextEndOffset &&
    s.pageTextEndOffset - s.pageTextStartOffset == textValue.length) (context ++ " page text offsets are invalid")
  validatePlainOffsets textValue context s.plainTextStartOffset s.plainTextEndOffset
  match s.geometry with
  | .none => .ok ()
  | .some g => validatePdfGeometry context g

def validateTranscriptSelector (s : TranscriptPlace) : Except String Unit :=
  require (0 ≤ s.tStartMs && s.tStartMs < s.tEndMs) (context ++ " transcript times are invalid")

def validateSelector (sourceKind : SourceKind) (selector : Locator) : Except String Unit := do
  require (selector.exact == textValue) (context ++ " text_quote exact does not match text")
  match sourceKind, selector.place with
  | .webArticle, .webText s => validateFragmentSelector isUuid textValue context s
  | .webArticle, _ => .error (context ++ " kind is invalid for web_article")
  | .epub, .epubText s => validateFragmentSelector isUuid textValue context s
  | .epub, _ => .error (context ++ " kind is invalid for epub")
  | .pdf, .pdfText s => validatePdfSelector textValue context s
  | .pdf, .pdfTextQuote s => validatePdfSelector textValue context s
  | .pdf, _ => .error (context ++ " kind is invalid for pdf")
  | .transcript, .transcriptTimeText s => validateTranscriptSelector context s
  | .transcript, _ => .error (context ++ " kind is invalid for transcript")
  | .note, .noteText s => validateNoteSelector isUuid textValue context s
  | .note, _ => .error (context ++ " kind is invalid for note")

end Selectors

section Blocks

variable (isUuid : Text → Bool) (owner : IndexOwner) (sourceKind : SourceKind)

/-- The checks of one block, after one that ends at `previousSourceEnd`. -/
def validateBlock (expectedIdx : Nat) (previousSourceEnd : Option Int) (block : IndexableBlock) : Except String Unit := do
  require (block.owner == owner) "IndexableBlock owner does not match target owner"
  require (block.sourceKind == sourceKind) "IndexableBlock source_kind does not match target source"
  require (block.blockIdx == expectedIdx) "IndexableBlock rows must be contiguous and ordered"
  require (!(pythonStrip block.blockKind).isEmpty) "IndexableBlock block_kind is required"
  require (0 ≤ block.sourceStartOffset && block.sourceStartOffset ≤ block.sourceEndOffset) "IndexableBlock offsets are invalid"
  require (block.sourceEndOffset - block.sourceStartOffset == block.canonicalText.length)
    "IndexableBlock source offsets do not match canonical_text"
  require (previousSourceEnd.all fun e => e ≤ block.sourceStartOffset)
    "IndexableBlock source offsets must be sorted and non-overlapping"
  require (block.extractionConfidence.all fun c => 0 ≤ c && c ≤ 1) "IndexableBlock extraction_confidence is invalid"
  validateSelector isUuid block.canonicalText "block locator" sourceKind block.locator
  validateSelector isUuid block.canonicalText "block selector" sourceKind block.selector

/-- The loop of `_validate_blocks`. -/
def validateBlocksFrom : Nat → Option Int → List IndexableBlock → Except String Unit
  | _, _, [] => .ok ()
  | expectedIdx, previousSourceEnd, block :: blocks => do
    validateBlock isUuid owner sourceKind expectedIdx previousSourceEnd block
    validateBlocksFrom (expectedIdx + 1) (.some block.sourceEndOffset) blocks

def validateBlocks (blocks : List IndexableBlock) : Except String Unit :=
  validateBlocksFrom isUuid owner sourceKind 0 .none blocks

end Blocks

end Nexus.Indexing
