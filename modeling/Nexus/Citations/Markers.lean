/-
Citation markers of generated markdown: the grammar `[N]` and `[N](...)`, and
how a generated text is made canonical (`resource_graph/citations.py`,
`chat_run_citations.py`).

A digit is what `\d` and `int` take for one: a character of category `Nd` of
Unicode 15.0.
-/
import Nexus.Graph.Edges
import Nexus.Lib.ExceptFacts
import Nexus.Lib.FindIter
import Mathlib.Data.List.Sort

namespace Nexus.Citations
open FindIter

/-! ## Numbers -/

/-- Where the runs of ten decimal digits begin. -/
def decimalZeros : List Nat :=
  [0x30, 0x660, 0x6f0, 0x7c0, 0x966, 0x9e6, 0xa66, 0xae6, 0xb66, 0xbe6, 0xc66, 0xce6, 0xd66, 0xde6, 0xe50, 0xed0, 0xf20,
    0x1040, 0x1090, 0x17e0, 0x1810, 0x1946, 0x19d0, 0x1a80, 0x1a90, 0x1b50, 0x1bb0, 0x1c40, 0x1c50, 0xa620, 0xa8d0,
    0xa900, 0xa9d0, 0xa9f0, 0xaa50, 0xabf0, 0xff10, 0x104a0, 0x10d30, 0x11066, 0x110f0, 0x11136, 0x111d0, 0x112f0,
    0x11450, 0x114d0, 0x11650, 0x116c0, 0x11730, 0x118e0, 0x11950, 0x11c50, 0x11d50, 0x11da0, 0x11f50, 0x16a60, 0x16ac0,
    0x16b50, 0x1d7ce, 0x1d7d8, 0x1d7e2, 0x1d7ec, 0x1d7f6, 0x1e140, 0x1e2f0, 0x1e4f0, 0x1e950, 0x1fbf0]

def decimal (c : Char) : Option Nat :=
  (decimalZeros.find? fun z => z ≤ c.toNat && c.toNat < z + 10).map (c.toNat - ·)

/-- `\d` -/
def isDecimal (c : Char) : Bool := (decimal c).isSome

/-- `sys.int_info.default_max_str_digits` -/
def maxStrDigits : Nat := 4300

/-- `int(...)` of a run of digits. -/
def pyInt (digits : Text) : Except Abort Nat :=
  if maxStrDigits < digits.length then .error .defect
  else .ok (digits.foldl (fun n c => 10 * n + (decimal c).getD 0) 0)

/-! ## The grammar -/

structure MarkerGroups where
  digits : Text
  link : Option Text
  deriving DecidableEq, Repr

/-- `[)\n]`, which ends the text of a link. -/
def endsLink (c : Char) : Bool := c == ')' || c == '\n'

/-- `(?:\(([^)\n]*)\))?` -/
def linkGroup : Text → Option Text
  | '(' :: s =>
    match s.dropWhile (!endsLink ·) with
    | ')' :: _ => .some (s.takeWhile (!endsLink ·))
    | _ => .none
  | _ => .none

/-- `_MARKDOWN_CITATION_MARKER_RE`, that is `\[(\d+)\](?:\(([^)\n]*)\))?` -/
def markerRe : Pattern Char MarkerGroups
  | '[' :: s =>
    let digits := s.takeWhile isDecimal
    match s.dropWhile isDecimal with
    | ']' :: rest =>
      if digits = [] then .none
      else match linkGroup rest with
        | .none => .some (⟨digits, .none⟩, digits.length + 1)
        | .some link => .some (⟨digits, .some link⟩, digits.length + 1 + (link.length + 2))
    | _ => .none
  | _ => .none

structure GeneratedMarkdownCitationMarker where
  ordinal : Nat
  start : Nat
  stop : Nat
  linked : Bool
  deriving DecidableEq, Repr

abbrev Markers := List GeneratedMarkdownCitationMarker

def parseMarker (m : Match MarkerGroups) : Except Abort GeneratedMarkdownCitationMarker :=
  (pyInt m.group.digits).map fun ordinal => ⟨ordinal, m.start, m.stop, m.group.link.isSome⟩

def parseGeneratedMarkdownCitationMarkers (contentMd : Text) : Except Abort Markers :=
  (finditer markerRe 0 0 contentMd).mapM parseMarker

/-! ## Canonical citations -/

/-- `CitationCandidate`, with what the graph keeps of its snapshot. -/
structure CitationCandidate where
  candidateOrdinal : Nat
  retrievalId : Uuid
  target : Graph.ResourceRef
  snapshot : Graph.CitationSnapshot
  deriving DecidableEq, Repr

structure CanonicalCitation where
  candidateOrdinal : Nat
  finalOrdinal : Nat
  deriving DecidableEq, Repr

inductive CanonicalCitationResult
  | published (contentMd : Text) (citations : List CanonicalCitation)
  | degraded (contentMd : Text) (detail : Text)
  deriving DecidableEq, Repr

def CanonicalCitationResult.contentMd : CanonicalCitationResult → Text
  | .published contentMd _ => contentMd
  | .degraded contentMd _ => contentMd

/-- `f"[{n}]"` -/
def markerText (n : Nat) : Text := '[' :: Nat.toDigits 10 n ++ [']']

/-- What `_rewrite_markers` writes in place of a marker. -/
def rewrittenMarker (finalOrdinalByCandidate : List CanonicalCitation) (marker : GeneratedMarkdownCitationMarker) :
    Except Abort Text :=
  if finalOrdinalByCandidate = [] then .ok []
  else match finalOrdinalByCandidate.find? fun c => c.candidateOrdinal = marker.ordinal with
    | .none => .error .defect
    | .some c => .ok (markerText c.finalOrdinal)

/-- `_rewrite_markers`, from the cursor on. -/
def rewriteMarkers (contentMd : Text) (finalOrdinalByCandidate : List CanonicalCitation) :
    Nat → Markers → Except Abort Text
  | cursor, [] => .ok (contentMd.drop cursor)
  | cursor, marker :: markers => do
    let chunk := (contentMd.take marker.start).drop cursor
    let written ← rewrittenMarker finalOrdinalByCandidate marker
    let rest ← rewriteMarkers contentMd finalOrdinalByCandidate marker.stop markers
    .ok (chunk ++ written ++ rest)

/-- `final_ordinal_by_candidate.setdefault(ordinal, len(...) + 1)` -/
def setDefault (finalOrdinalByCandidate : List CanonicalCitation) (ordinal : Nat) : List CanonicalCitation :=
  if ordinal ∈ finalOrdinalByCandidate.map CanonicalCitation.candidateOrdinal then finalOrdinalByCandidate
  else finalOrdinalByCandidate ++ [⟨ordinal, finalOrdinalByCandidate.length + 1⟩]

def finalOrdinals (markers : Markers) : List CanonicalCitation :=
  (markers.map GeneratedMarkdownCitationMarker.ordinal).foldl setDefault []

/-- `sorted({...})` -/
def sortedSet (ordinals : List Nat) : List Nat := ordinals.dedup.insertionSort (· ≤ ·)

/-- A list of numbers as an f-string writes it. -/
def listText (ns : List Nat) : Text := '[' :: (List.intercalate ", ".toList (ns.map (Nat.toDigits 10)) ++ [']'])

/-- `sorted(ordinals) == list(range(1, len(ordinals) + 1))` -/
def denseOrdinals (ordinals : List Nat) : Bool := ordinals.insertionSort (· ≤ ·) == List.range' 1 ordinals.length

def linkedOrdinals (markers : Markers) : List Nat :=
  sortedSet ((markers.filter fun m => m.linked).map GeneratedMarkdownCitationMarker.ordinal)

def unknownOrdinals (known : List Nat) (markers : Markers) : List Nat :=
  sortedSet ((markers.filter fun m => m.ordinal ∉ known).map GeneratedMarkdownCitationMarker.ordinal)

/-- The `detail` of a degraded publication. -/
def degradedDetail (linked unknown : List Nat) : Text :=
  List.intercalate ", ".toList
    ((if linked = [] then [] else ["linked_markers=".toList ++ listText linked]) ++
      (if unknown = [] then [] else ["unknown_markers=".toList ++ listText unknown]))

def canonicalizeChatCitations (generatedMarkdown : Text) (candidates : List CitationCandidate) :
    Except Abort CanonicalCitationResult := do
  let candidateOrdinals := candidates.map CitationCandidate.candidateOrdinal
  if !denseOrdinals candidateOrdinals then .error .defect
  else
    let markers ← parseGeneratedMarkdownCitationMarkers generatedMarkdown
    let linked := linkedOrdinals markers
    let unknown := unknownOrdinals candidateOrdinals markers
    if linked ≠ [] ∨ unknown ≠ [] then
      let contentMd ← rewriteMarkers generatedMarkdown [] 0 markers
      .ok (.degraded contentMd (degradedDetail linked unknown))
    else
      let citations := finalOrdinals markers
      let contentMd ← rewriteMarkers generatedMarkdown citations 0 markers
      .ok (.published contentMd citations)

end Nexus.Citations
