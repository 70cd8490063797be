/-
`services/text_quote.py`: quotes found again in their owner's normalized text.

A text is normalized to its form C with each run of whitespace as one space,
and each normalized character keeps the span of that form it came from. A quote
is looked for literally, and what stands around it (`before` and `after`, the
source's prefix and suffix) up to the spaces at the seams. An index beyond a
list, which raises, is `none`; what a media's sources are read from is not told.
-/
import Nexus.Primitives
import Nexus.Lib.UnicodeNormal
import Mathlib.Data.List.DropRight
import Mathlib.Data.List.Infix

namespace Nexus.TextQuote
open UnicodeNormal

inductive QuoteStatus
  | unique
  | ambiguous
  | noMatch
  | emptyExact
  deriving DecidableEq, Repr

structure NormalizedText where
  text : Text
  spans : List (Nat × Nat)
  deriving DecidableEq, Repr

/-- `str.find`, from `start`. -/
def find (text needle : Text) (start : Nat) : Option Nat :=
  (List.range' start (text.length + 1 - start)).find? fun i => needle.isPrefixOf (text.drop i)

theorem find_bounds {text needle : Text} {start i : Nat} (h : find text needle start = .some i) :
    start ≤ i ∧ i ≤ text.length := by
  have hmem := List.mem_range'_1.1 (List.mem_of_find?_eq_some h)
  omega

/-- The loop of `_find_all_occurrences`. -/
def occurrencesFrom (text needle : Text) (start : Nat) : List Nat :=
  match h : find text needle start with
  | .none => []
  | .some i => i :: occurrencesFrom text needle (i + 1)
termination_by text.length + 1 - start
decreasing_by
  have hbounds := find_bounds h
  omega

def findAllOccurrences (text needle : Text) : List Nat := occurrencesFrom text needle 0

def rstrip (s : Text) : Text := s.rdropWhile isPythonSpace

def lstrip (s : Text) : Text := s.dropWhile isPythonSpace

/-- Whether the text around `start` and `stop` is the context quoted. -/
def contextMatches (text before after : Text) (start stop : Nat) : Bool :=
  (before.isEmpty || before.isSuffixOf (rstrip (text.take start))) &&
    (after.isEmpty || after.isPrefixOf (lstrip (text.drop stop)))

structure OwnerQuoteMatch where
  status : QuoteStatus
  fragmentId : Option Uuid
  rawStart : Option Nat
  rawEnd : Option Nat
  before : Text
  after : Text
  tStartMs : Option Nat
  tEndMs : Option Nat
  deriving DecidableEq, Repr

def OwnerQuoteMatch.none (status : QuoteStatus) : OwnerQuoteMatch := ⟨status, .none, .none, .none, [], [], .none, .none⟩

structure NormalizedOwnerSource where
  fragmentId : Option Uuid
  tStartMs : Option Nat
  tEndMs : Option Nat
  normalized : NormalizedText
  deriving DecidableEq, Repr

end Nexus.TextQuote
