/-
`services/canonicalize.py`: the canonical text of a document and the starts of
its elements in it.

The walk emits raw text and notes where the elements asked for start in it.
The passes then compose, collapse and trim, each over the text and the array of
the raw places its characters came from; a read beyond an array, which raises,
is `none`. What the parser makes of the HTML may be any list of nodes. Python's
bound on recursion is not told.
-/
import Nexus.Primitives
import Nexus.Lib.Bisection
import Nexus.Lib.UnicodeNormal
import Mathlib.Data.List.DropRight
import Mathlib.Data.List.Sort

namespace Nexus.Canonicalize
open UnicodeNormal Bisection

/-! ## The document -/

inductive DomNode
  | text (data : Text)
  | element (tagName : Text) (attributes : List (Text × Text)) (childNodes : List DomNode)
  /-- A comment or another node the walk passes over. -/
  | other
  deriving Repr

def DomNode.isElement : DomNode → Bool
  | .element .. => true
  | _ => false

/-- `str.lower`, as far as what is compared tells: no other character has a
letter of ASCII for its lower case. -/
def lower (s : Text) : Text := s.map fun c => if c = '\u212A' then 'k' else c.toLower

def getAttribute (attributes : List (Text × Text)) (name : String) : Text :=
  ((attributes.find? fun a => a.1 == name.toList).map Prod.snd).getD []

def hasAttribute (attributes : List (Text × Text)) (name : String) : Bool := attributes.any fun a => a.1 == name.toList

def blockElements : List String := ["p", "li", "ul", "ol", "h1", "h2", "h3", "h4", "h5", "h6", "blockquote", "pre", "div",
  "section", "article", "header", "footer", "nav", "aside", "figure", "figcaption", "table", "tr", "td", "th"]

def skipElements : List String := ["script", "style", "noscript", "template"]

def isHidden (attributes : List (Text × Text)) : Bool :=
  hasAttribute attributes "hidden" || lower (getAttribute attributes "aria-hidden") == "true".toList

/-! ## The walk -/

/-- `_RawTextBuilder` and `raw_offsets`. -/
structure Walk where
  raw : Text
  rawOffsets : List (Text × Nat)
  deriving DecidableEq, Repr

namespace Walk

def append (w : Walk) (text : Text) : Walk := { w with raw := w.raw ++ text }

/-- A block starts and ends on a line of its own. -/
def breakLine (w : Walk) : Walk := if w.raw ≠ [] ∧ w.raw.getLast? ≠ .some '\n' then w.append ['\n'] else w

/-- `raw_offsets.setdefault`, of a value asked for. -/
def record (elementIds : List Text) (w : Walk) (value : Text) : Walk :=
  if elementIds.contains value then
    if w.rawOffsets.any fun p => p.1 == value then w
    else { w with rawOffsets := w.rawOffsets ++ [(value, w.raw.length)] }
  else w

end Walk

/-- `_normalize_text`: each run of whitespace is a space, told at its end. -/
def normalizeText : Text → Text
  | [] => []
  | c :: text =>
    if isPythonSpace c then if text.head?.any isPythonSpace then normalizeText text else ' ' :: normalizeText text
    else c :: normalizeText text

mutual

/-- `_walk_element`, and what a parent does with a node that is none. -/
def walkNode (elementIds : List Text) : DomNode → Walk → Walk
  | .text data, w => w.append (normalizeText data)
  | .element tagName attributes childNodes, w =>
    let tag := lower tagName
    if isHidden attributes then w
    else if (skipElements.map String.toList).contains tag then w
    else
      let isBlock := (blockElements.map String.toList).contains tag
      let w := if isBlock then w.breakLine else w
      let w := w.record elementIds (getAttribute attributes "id")
      let w := w.record elementIds (getAttribute attributes "name")
      if tag = "br".toList then w.append ['\n']
      else
        let w := walkNodes elementIds childNodes w
        if isBlock then w.breakLine else w
  | .other, w => w

def walkNodes (elementIds : List Text) : List DomNode → Walk → Walk
  | [], w => w
  | node :: rest, w => walkNodes elementIds rest (walkNode elementIds node w)

end

/-! ## Composition, with the places characters came from -/

/-- The first source waiting for each character of the decomposed text. -/
def reorderedSources : List (Char × Nat) → Text → Option (List Nat)
  | _, [] => .some []
  | decomposed, d :: text => do
    let source ← decomposed.find? fun p => p.1 == d
    let rest ← reorderedSources (decomposed.eraseP fun p => p.1 == d) text
    .some (source.2 :: rest)

/-- The least of the next `n` sources, at least of one. -/
def sourceStart (n : Nat) (sources : List Nat) : Option Nat := do
  let first ← sources.head?
  if sources.length < n then .none else .some ((sources.take n).foldl min first)

def normalizedSources (U : Ucd) : Text → List Nat → Option (List Nat)
  | [], _ => .some []
  | c :: text, reordered => do
    let source ← sourceStart (U.nfd [c]).length reordered
    let rest ← normalizedSources U text (reordered.drop (U.nfd [c]).length)
    .some (source :: rest)

def normalizeNfcWithSources (U : Ucd) (text : Text) : Option (Text × List Nat) :=
  if text = [] then .some ([], [])
  else if U.nfc text = text then .some (text, List.range text.length)
  else do
    let decomposed := text.zipIdx.flatMap fun (c, source) => (U.nfd [c]).map fun d => (d, source)
    let reordered ← reorderedSources decomposed (U.nfd text)
    let sources ← normalizedSources U (U.nfc text) reordered
    .some (U.nfc text, sources)

/-! ## Blank lines -/

/-- How far the next newline is, or the end. -/
def lineLength (text : Text) : Nat := (text.takeWhile fun c => c != '\n').length

/-- `_collapse_blank_lines`, of what is left of the text and its sources. -/
def collapseBlankLines (text : Text) (sources : List Nat) : Option (Text × List Nat) :=
  let newline := lineLength text
  if newline < text.length then do
    let blank := (text.drop (newline + 1)).takeWhile isPythonSpace
    if 1 + blank.count '\n' < 2 then do
      let source ← sources[newline]?
      let (rest, restSources) ← collapseBlankLines (text.drop (newline + 1)) (sources.drop (newline + 1))
      .some (text.take newline ++ '\n' :: rest, sources.take newline ++ source :: restSources)
    else do
      let stop := newline + 1 + blank.length
      let source ← ((sources.take stop).drop newline).min?
      let (rest, restSources) ← collapseBlankLines (text.drop stop) (sources.drop stop)
      .some (text.take newline ++ '\n' :: '\n' :: rest, sources.take newline ++ source :: source :: restSources)
  else .some (text, sources)
termination_by text.length
decreasing_by
  all_goals
    simp only [List.length_drop]
    omega

/-! ## Lines -/

/-- The bounds of a text without the whitespace at its edges. -/
def trimSpan (text : Text) : Nat × Nat :=
  let first := (text.takeWhile isPythonSpace).length
  (first, first + ((text.drop first).rdropWhile isPythonSpace).length)

def slice {α : Type} (span : Nat × Nat) (l : List α) : List α := (l.take span.2).drop span.1

/-- The lines of `_trim_lines`, of what is left of the text and its sources. -/
def trimmedLines (text : Text) (sources : List Nat) : Option (Text × List Nat) :=
  let lineEnd := lineLength text
  let span := trimSpan (text.take lineEnd)
  if lineEnd < text.length then do
    let source ← sources[lineEnd]?
    let (rest, restSources) ← trimmedLines (text.drop (lineEnd + 1)) (sources.drop (lineEnd + 1))
    .some (slice span text ++ '\n' :: rest, slice span sources ++ source :: restSources)
  else .some (slice span text, slice span sources)
termination_by text.length
decreasing_by
  simp only [List.length_drop]
  omega

def trimLines (text : Text) (sources : List Nat) : Option (Text × List Nat) := do
  let (lineTrimmed, trimmedSources) ← trimmedLines text sources
  .some (slice (trimSpan lineTrimmed) lineTrimmed, slice (trimSpan lineTrimmed) trimmedSources)

/-! ## The canonical text -/

def canonicalTextWithSources (U : Ucd) (rawText : Text) : Option (Text × List Nat) := do
  let (normalizedText, normalizedSources) ← normalizeNfcWithSources U rawText
  let (collapsedText, collapsedSources) ← collapseBlankLines normalizedText normalizedSources
  trimLines collapsedText collapsedSources

/-- The canonical text of a parsed document and the starts of its elements. -/
def canonicalTextWithElementOffsets (U : Ucd) (root : DomNode) (elementIds : List Text) :
    Option (Text × List (Text × Nat)) := do
  let w := walkNode elementIds root ⟨[], []⟩
  let (text, finalSourceStarts) ← canonicalTextWithSources U w.raw
  let sourceStarts := finalSourceStarts.insertionSort (· ≤ ·)
  .some (text, w.rawOffsets.map fun (elementId, rawOffset) =>
    (elementId, bisectLeft sourceStarts rawOffset 0 sourceStarts.length))

def generateCanonicalTextWithElementOffsets (U : Ucd) (parseFragment : Text → List DomNode) (htmlSanitized : Text)
    (elementIds : List Text) : Option (Text × List (Text × Nat)) :=
  if pythonStrip htmlSanitized = [] then .some ([], [])
  else
    match (parseFragment ("<div>".toList ++ htmlSanitized ++ "</div>".toList)).find? DomNode.isElement with
    | .none => .some ([], [])
    | .some root => canonicalTextWithElementOffsets U root elementIds

def generateCanonicalText (U : Ucd) (parseFragment : Text → List DomNode) (htmlSanitized : Text) : Option Text :=
  (generateCanonicalTextWithElementOffsets U parseFragment htmlSanitized []).map Prod.fst

end Nexus.Canonicalize
