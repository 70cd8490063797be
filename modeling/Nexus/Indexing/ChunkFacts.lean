/-
The chunks of a plan: which parts they have, what text, and where it stands.

The loop over the pieces is `coalesce` (`chunkParts_eq`). The parts of a chunk
follow one another in the source, at one anchor; so its text is contiguous, on
every axis on which the blocks' offsets advance (`chunkText_reads`).
-/
import Nexus.Indexing.Pieces
import Nexus.Lib.Coalesce
import Nexus.Lib.Tiling

namespace Nexus.Indexing
open ExceptFacts Coalesce

/-! ## Anchors and axes -/

/-- What the parts of a chunk have in common. -/
inductive Anchor
  | fragment (fragmentId : Text)
  | page (pageNumber : Int)
  | segment (tStartMs tEndMs : Int)
  | note (noteBlockId : Text)
  deriving DecidableEq, Repr

def Place.anchor : Place → Anchor
  | .webText s | .epubText s => .fragment s.fragmentId
  | .pdfText s | .pdfTextQuote s => .page s.pageNumber
  | .transcriptTimeText s => .segment s.tStartMs s.tEndMs
  | .noteText s => .note s.noteBlockId

/-- What the offsets of a locator count in: the fragment or the note, the page,
or the plain text. -/
inductive Axis
  | text
  | page
  | plain
  deriving DecidableEq, Repr

/-- The axes on which a locator reports offsets. -/
def Place.axes : Place → List Axis
  | .webText _ | .epubText _ | .noteText _ => [.text]
  | .pdfText _ | .pdfTextQuote _ => [.page, .plain]
  | .transcriptTimeText _ => []

def Place.start? : Axis → Place → Option Int
  | .text, .webText s | .text, .epubText s => .some s.startOffset
  | .text, .noteText s => .some s.startOffset
  | .page, .pdfText s | .page, .pdfTextQuote s => .some s.pageTextStartOffset
  | .plain, .pdfText s | .plain, .pdfTextQuote s => s.plainTextStartOffset
  | _, _ => .none

def Place.stop? : Axis → Place → Option Int
  | .text, .webText s | .text, .epubText s => .some s.endOffset
  | .text, .noteText s => .some s.endOffset
  | .page, .pdfText s | .page, .pdfTextQuote s => .some s.pageTextEndOffset
  | .plain, .pdfText s | .plain, .pdfTextQuote s => s.plainTextEndOffset
  | _, _ => .none

def IndexableBlock.place (b : IndexableBlock) : Place := b.locator.place

/-- Within a fragment, page or note, the offsets advance as the source's do. -/
def Advances (blocks : List IndexableBlock) : Prop :=
  ∀ b ∈ blocks, ∀ b' ∈ blocks, b.place.kind = b'.place.kind → b.place.anchor = b'.place.anchor →
    ∀ axis ∈ b.place.axes, ∀ s ∈ b.place.start? axis, ∀ s' ∈ b'.place.start? axis,
      s' = s + (b'.sourceStartOffset - b.sourceStartOffset)

instance (blocks : List IndexableBlock) : Decidable (Advances blocks) :=
  inferInstanceAs (Decidable (∀ b ∈ blocks, ∀ b' ∈ blocks, b.place.kind = b'.place.kind → b.place.anchor = b'.place.anchor →
    ∀ axis ∈ b.place.axes, ∀ s ∈ b.place.start? axis, ∀ s' ∈ b'.place.start? axis,
      s' = s + (b'.sourceStartOffset - b.sourceStartOffset)))

/-- What the block builders see to, and the checks do not: which kind of locator a
PDF's block has, that it has offsets on each axis, and that a note is one block. -/
structure Built (blocks : List IndexableBlock) : Prop where
  kind : ∀ b ∈ blocks, b.place.kind ≠ .pdfTextQuote
  offsets : ∀ b ∈ blocks, ∀ axis ∈ b.place.axes, (b.place.start? axis).isSome
  note : ∀ b ∈ blocks, ∀ b' ∈ blocks, b.place.kind = .noteText → b'.place.kind = .noteText →
    b.place.anchor = b'.place.anchor → b' = b

/-! ## The loop -/

def sameAnchor (left right : Locator) : Bool := left.place.kind == right.place.kind && left.place.anchor == right.place.anchor

theorem sameLocatorAnchor_eq {left right : Locator} (h : left.place.kind ≠ .pdfTextQuote) :
    sameLocatorAnchor left right = .ok (sameAnchor left right) := by
  obtain ⟨l, exact⟩ := left
  obtain ⟨r, exact'⟩ := right
  cases l with
  | pdfTextQuote => exact absurd rfl h
  | webText | epubText | pdfText | noteText =>
    cases r <;> simp [sameLocatorAnchor, sameAnchor, Place.kind, Place.anchor, beq_eq_decide]
  | transcriptTimeText =>
    cases r <;> simp [sameLocatorAnchor, sameAnchor, Place.kind, Place.anchor, beq_eq_decide]

/-- The second part continues the text of the first. -/
def joins (p p' : Part) : Bool :=
  sameAnchor p.block.locator p'.block.locator && p.piece.endOffset == p.block.canonicalText.length &&
    p'.piece.startOffset == 0 && p.block.sourceEndOffset == p'.block.sourceStartOffset

def Part.tokens (p : Part) : Nat := p.piece.tokenCount

variable {parts chunk : List Part} {p p' : Part}

theorem separatorBefore_isEmpty (b b' : IndexableBlock) :
    (separatorBefore (.some b) b').isEmpty = (b.sourceEndOffset == b'.sourceStartOffset) := by
  unfold separatorBefore
  dsimp only
  split
  next h => exact h.symm
  next h => simpa using h

theorem startsChunk_eq {tokens : Nat} (h : p.block.place.kind ≠ .pdfTextQuote) :
    startsChunk tokens p p' = .ok (!decide (tokens + p'.tokens ≤ chunkMaxTokens ∧ joins p p' = true)) := by
  unfold startsChunk
  rw [sameLocatorAnchor_eq h]
  by_cases hfits : tokens + p'.piece.tokenCount > chunkMaxTokens
  · rw [if_pos hfits]
    have hnot : ¬ tokens + p'.tokens ≤ chunkMaxTokens := by
      unfold Part.tokens
      omega
    simp [hnot]
  · rw [if_neg hfits]
    have hle : tokens + p'.tokens ≤ chunkMaxTokens := by
      unfold Part.tokens
      omega
    have hjoins : decide (tokens + p'.tokens ≤ chunkMaxTokens ∧ joins p p' = true) = joins p p' := by simp [hle]
    rw [hjoins, separatorBefore_isEmpty]
    simp only [bne, ← Bool.not_and, joins]
    rfl

theorem addPart_eq {chunks : List (List Part)} {current : List Part} {tokens : Nat} (h : p.block.place.kind ≠ .pdfTextQuote) :
    addPart ⟨chunks, current ++ [p], tokens⟩ p' = .ok (
      if tokens + p'.tokens ≤ chunkMaxTokens ∧ joins p p' = true then ⟨chunks, current ++ [p] ++ [p'], tokens + p'.tokens⟩
      else ⟨chunks ++ [current ++ [p]], [p'], p'.tokens⟩) := by
  have hlast : (current ++ [p]).getLast? = .some p := List.getLast?_concat
  unfold addPart
  dsimp only
  rw [hlast]
  dsimp only
  rw [startsChunk_eq h]
  by_cases hjoin : tokens + p'.tokens ≤ chunkMaxTokens ∧ joins p p' = true
  · rw [if_pos hjoin, decide_eq_true hjoin]
    rfl
  · rw [if_neg hjoin, decide_eq_false hjoin]
    rfl

theorem foldlM_addPart (hkinds : ∀ p ∈ parts, p.block.place.kind ≠ .pdfTextQuote) (hp : p.block.place.kind ≠ .pdfTextQuote)
    (chunks : List (List Part)) (current : List Part) : ∃ c,
      parts.foldlM addPart ⟨chunks, current ++ [p], ((current ++ [p]).map Part.tokens).sum⟩ = .ok c ∧
        c.currentParts ≠ [] ∧ c.chunks ++ [c.currentParts] = chunks ++ coalesceFrom joins Part.tokens chunkMaxTokens current p parts := by
  induction parts generalizing chunks current p with
  | nil => exact ⟨_, rfl, by simp, by rw [coalesceFrom]⟩
  | cons p' parts ih =>
    have hrest : ∀ p ∈ parts, p.block.place.kind ≠ .pdfTextQuote := fun p hp => hkinds p (List.mem_cons_of_mem _ hp)
    have hp' := hkinds p' List.mem_cons_self
    rw [List.foldlM_cons, addPart_eq hp, coalesceFrom]
    by_cases hjoin : ((current ++ [p]).map Part.tokens).sum + p'.tokens ≤ chunkMaxTokens ∧ joins p p' = true
    · rw [if_pos hjoin, if_pos hjoin]
      have hsum : ((current ++ [p]).map Part.tokens).sum + p'.tokens = ((current ++ [p] ++ [p']).map Part.tokens).sum := by
        simp [Nat.add_assoc]
      rw [hsum]
      exact ih hrest hp' chunks (current ++ [p])
    · rw [if_neg hjoin, if_neg hjoin]
      obtain ⟨c, hrun, hne, hc⟩ := ih hrest hp' (chunks ++ [current ++ [p]]) []
      refine ⟨c, hrun, hne, ?_⟩
      rw [hc, List.append_assoc, List.singleton_append]

/-- **The loop over the pieces puts together those that join.** -/
theorem chunkParts_eq (h : ∀ p ∈ parts, p.block.place.kind ≠ .pdfTextQuote) :
    chunkParts parts = .ok (coalesce joins Part.tokens chunkMaxTokens parts) := by
  cases parts with
  | nil => rfl
  | cons p parts =>
    obtain ⟨c, hrun, hne, hc⟩ := foldlM_addPart (fun p hp => h p (List.mem_cons_of_mem _ hp)) (h p List.mem_cons_self) [] []
    have hfirst : addPart ⟨[], [], 0⟩ p = .ok ⟨[], [] ++ [p], (([] ++ [p]).map Part.tokens).sum⟩ := by
      simp [addPart, Part.tokens]
    have hnonempty : c.currentParts.isEmpty = false := List.isEmpty_eq_false_iff.2 hne
    have hdone : (p :: parts).foldlM addPart ⟨[], [], 0⟩ = .ok c := by
      rw [List.foldlM_cons, hfirst]
      exact hrun
    rw [chunkParts, hdone, coalesce]
    simp only [bind, Except.bind, hnonempty]
    exact congrArg Except.ok hc

/-! ## The parts of a chunk -/

theorem joins_iff : joins p p' = true ↔ (p.block.place.kind = p'.block.place.kind ∧ p.block.place.anchor = p'.block.place.anchor) ∧
    p.piece.endOffset = p.block.canonicalText.length ∧ p'.piece.startOffset = 0 ∧
      p.block.sourceEndOffset = p'.block.sourceStartOffset := by
  simp [joins, sameAnchor, IndexableBlock.place, and_assoc]

theorem anchored_of_isChain (h : (p :: chunk).IsChain fun p p' => joins p p' = true) (hp' : p' ∈ p :: chunk) :
    p'.block.place.kind = p.block.place.kind ∧ p'.block.place.anchor = p.block.place.anchor := by
  induction chunk generalizing p with
  | nil =>
    obtain rfl := List.mem_singleton.1 hp'
    exact ⟨rfl, rfl⟩
  | cons q chunk ih =>
    obtain ⟨hjoin, hrest⟩ := List.isChain_cons_cons.1 h
    rcases List.mem_cons.1 hp' with rfl | hp'
    · exact ⟨rfl, rfl⟩
    · obtain ⟨hkind, hanchor⟩ := ih hrest hp'
      obtain ⟨⟨hkind', hanchor'⟩, -⟩ := joins_iff.1 hjoin
      exact ⟨hkind.trans hkind'.symm, hanchor.trans hanchor'.symm⟩

theorem chunkTextFrom_eq {previous : Part} (h : (previous :: chunk).IsChain fun p p' => joins p p' = true) :
    chunkTextFrom (.some previous.block) chunk = chunk.flatMap Part.text := by
  induction chunk generalizing previous with
  | nil => rfl
  | cons p chunk ih =>
    obtain ⟨hjoin, hrest⟩ := List.isChain_cons_cons.1 h
    have hempty : separatorBefore (.some previous.block) p.block = [] := by
      rw [← List.isEmpty_iff, separatorBefore_isEmpty, beq_iff_eq]
      exact (joins_iff.1 hjoin).2.2.2
    rw [chunkTextFrom, hempty, ih hrest, List.flatMap_cons, List.nil_append]

theorem chunkText_eq (h : (p :: chunk).IsChain fun p p' => joins p p' = true) :
    chunkText (p :: chunk) = (p :: chunk).flatMap Part.text := by
  rw [chunkText, chunkTextFrom, chunkTextFrom_eq h, List.flatMap_cons]
  rfl

abbrev Part.InBlock (p : Part) : Prop := PieceBounds p.block.canonicalText p.piece

theorem Part.InBlock.length_text (h : p.InBlock) : p.text.length = p.piece.endOffset - p.piece.startOffset := by
  have hend := h.end_le
  rw [Part.text, List.length_drop, List.length_take]
  omega

theorem Part.InBlock.getElem?_text (h : p.InBlock) {k : Nat} (hk : k < p.text.length) :
    p.text[k]? = p.block.canonicalText[p.piece.startOffset + k]? := by
  rw [h.length_text] at hk
  rw [Part.text, List.getElem?_drop, List.getElem?_take_of_lt (by omega)]

/-! ## The text of the source -/

/-- From one offset to another, blocks that begin at `origin` read this text: some
block has each character, and no block has another there. -/
structure Reads (blocks : List IndexableBlock) (origin : IndexableBlock → Option Int) (start stop : Int) (text : Text) : Prop where
  stop_eq : stop = start + text.length
  covered : ∀ i < text.length, ∃ b ∈ blocks, ∃ s, origin b = .some s ∧ ∃ k < b.canonicalText.length, start + i = s + (k : Int)
  agrees : ∀ i < text.length, ∀ b ∈ blocks, ∀ s, origin b = .some s → ∀ k < b.canonicalText.length, start + i = s + (k : Int) →
    b.canonicalText[k]? = text[i]?

theorem eq_of_overlap {isUuid : Text → Bool} {sourceKind : SourceKind} {blocks : List IndexableBlock}
    (haccepted : ∀ b ∈ blocks, Accepted isUuid sourceKind b)
    (hsorted : blocks.Pairwise fun b b' => b.sourceEndOffset ≤ b'.sourceStartOffset) {b b' : IndexableBlock} (hb : b ∈ blocks)
    (hb' : b' ∈ blocks) {k k' : Nat} (hk : k < b.canonicalText.length) (hk' : k' < b'.canonicalText.length)
    (heq : b.sourceStartOffset + k = b'.sourceStartOffset + k') : b = b' := by
  have happart : ∀ b ∈ blocks, ∀ b' ∈ blocks,
      b = b' ∨ b.sourceEndOffset ≤ b'.sourceStartOffset ∨ b'.sourceEndOffset ≤ b.sourceStartOffset := by
    have hpairs : blocks.Pairwise fun b b' =>
        b = b' ∨ b.sourceEndOffset ≤ b'.sourceStartOffset ∨ b'.sourceEndOffset ≤ b.sourceStartOffset :=
      hsorted.imp fun h => .inr (.inl h)
    have : Std.Symm fun b b' : IndexableBlock =>
        b = b' ∨ b.sourceEndOffset ≤ b'.sourceStartOffset ∨ b'.sourceEndOffset ≤ b.sourceStartOffset :=
      ⟨fun _ _ h => h.elim (fun h => .inl h.symm) fun h => .inr h.symm⟩
    intro b hb b' hb'
    exact List.Pairwise.forall_of_forall (fun _ _ => .inl rfl) hpairs hb hb'
  have hlength := (haccepted b hb).length
  have hlength' := (haccepted b' hb').length
  rcases happart b hb b' hb' with h | h | h
  · exact h
  · omega
  · omega

section Text

variable {isUuid : Text → Bool} {sourceKind : SourceKind} {blocks among : List IndexableBlock}

theorem tiles_of_isChain (origin : IndexableBlock → Int) (hchain : chunk.IsChain fun p p' => joins p p' = true)
    (hin : ∀ p ∈ chunk, p.InBlock) (haccepted : ∀ p ∈ chunk, Accepted isUuid sourceKind p.block)
    (hshift : ∀ p ∈ chunk, ∀ p' ∈ chunk, origin p'.block = origin p.block + (p'.block.sourceStartOffset - p.block.sourceStartOffset)) :
    Tiling.Tiles (fun p => origin p.block + p.piece.startOffset) Part.text chunk := by
  refine List.IsChain.imp_of_mem_imp (fun p p' hp hp' hjoin => ?_) hchain
  obtain ⟨-, hend, hstart, hsource⟩ := joins_iff.1 hjoin
  have hlength := (haccepted p hp).length
  have hshift := hshift p hp p' hp'
  have htext := (hin p hp).length_text
  have hle := (hin p hp).start_le
  dsimp only
  omega

/-- **A chunk's text is contiguous**, among blocks that advance as the source does. -/
theorem reads_chunkText (origin : IndexableBlock → Option Int) (haccepted : ∀ b ∈ blocks, Accepted isUuid sourceKind b)
    (hsorted : blocks.Pairwise fun b b' => b.sourceEndOffset ≤ b'.sourceStartOffset) (hamong : ∀ b ∈ among, b ∈ blocks)
    (hshift : ∀ b ∈ among, ∀ b' ∈ among, ∃ s, origin b = .some s ∧
      origin b' = .some (s + (b'.sourceStartOffset - b.sourceStartOffset)))
    (hchain : (p :: chunk).IsChain fun p p' => joins p p' = true) (hin : ∀ p' ∈ p :: chunk, p'.InBlock)
    (hmem : ∀ p' ∈ p :: chunk, p'.block ∈ among) : ∃ s e, origin p.block = .some s ∧
      origin ((p :: chunk).getLast (List.cons_ne_nil p chunk)).block = .some e ∧
        Reads among origin (s + p.piece.startOffset)
          (e + ((p :: chunk).getLast (List.cons_ne_nil p chunk)).piece.endOffset) (chunkText (p :: chunk)) := by
  have horigin (b : IndexableBlock) (hb : b ∈ among) : origin b = .some ((origin b).getD 0) := by
    obtain ⟨s, hs, -⟩ := hshift b hb b hb
    rw [hs]
    rfl
  have htiles : Tiling.Tiles (fun p => (origin p.block).getD 0 + p.piece.startOffset) Part.text (p :: chunk) := by
    refine tiles_of_isChain (fun b => (origin b).getD 0) hchain hin (fun q hq => haccepted _ (hamong _ (hmem q hq)))
      fun q hq q' hq' => ?_
    obtain ⟨s, hs, hs'⟩ := hshift _ (hmem q hq) _ (hmem q' hq')
    rw [hs, hs']
    rfl
  have hlast : (p :: chunk).getLast (List.cons_ne_nil p chunk) ∈ p :: chunk := List.getLast_mem _
  rw [chunkText_eq hchain]
  refine ⟨_, _, horigin _ (hmem p List.mem_cons_self), horigin _ (hmem _ hlast), ?_, fun i hi => ?_,
    fun i hi b hb s hs k hk hpos => ?_⟩
  · have hstop := Tiling.stop_getLast htiles
    rw [(hin _ hlast).length_text] at hstop
    have hle := (hin _ hlast).start_le
    omega
  · obtain ⟨q, hq, k, hpos, hk, -⟩ := Tiling.getElem?_run htiles hi
    rw [(hin q hq).length_text] at hk
    have hend := (hin q hq).end_le
    exact ⟨q.block, hmem q hq, _, horigin _ (hmem q hq), q.piece.startOffset + k, by omega, by push_cast; omega⟩
  · obtain ⟨q, hq, k', hpos', hk', heq⟩ := Tiling.getElem?_run htiles hi
    rw [← heq, (hin q hq).getElem?_text hk']
    rw [(hin q hq).length_text] at hk'
    have hend := (hin q hq).end_le
    -- both blocks have a character at this offset, so they are one
    obtain ⟨s', hs', hsb⟩ := hshift _ (hmem q hq) _ hb
    rw [hs'] at hpos'
    have hoffset := Option.some.inj (hs.symm.trans hsb)
    dsimp only [Option.getD_some] at hpos'
    have hsource : b.sourceStartOffset + k = q.block.sourceStartOffset + ↑(q.piece.startOffset + k') := by
      push_cast
      omega
    have hsame := eq_of_overlap haccepted hsorted (hamong b hb) (hamong _ (hmem q hq)) hk (by omega) hsource
    subst hsame
    congr 1
    omega

end Text

end Nexus.Indexing
