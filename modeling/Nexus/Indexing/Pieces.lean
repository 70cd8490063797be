/-
What the blocks of an accepted list are, and the pieces they are cut into.

The pieces of a block cover its words (`exists_piece_of_word`), start one after
the other (`pairwise_blockPieces`) and have at most 420 words each; two in a row
of an over-long block share exactly 60 (`overlap_blockPieces`).
-/
import Nexus.Indexing.ChunkPlan
import Nexus.Lib.ExceptFacts
import Nexus.Strip

namespace Nexus.Indexing
open ExceptFacts WordRuns Windows

/-! ## Accepted blocks -/

theorem require_eq_ok {c : Bool} {message : String} {u : Unit} : require c message = .ok u ↔ c = true := by
  unfold require
  split
  next h => exact iff_of_true rfl h
  next h => exact iff_of_false nofun h

/-- What the checks say of one block. -/
structure Accepted (isUuid : Text → Bool) (sourceKind : SourceKind) (block : IndexableBlock) : Prop where
  length : block.sourceEndOffset - block.sourceStartOffset = block.canonicalText.length
  locator : validateSelector isUuid block.canonicalText "block locator" sourceKind block.locator = .ok ()

section Validate

variable {isUuid : Text → Bool} {owner : IndexOwner} {sourceKind : SourceKind} {idx : Nat} {previous : Option Int}
  {block : IndexableBlock} {blocks : List IndexableBlock}

theorem accepted_of_validateBlock (h : validateBlock isUuid owner sourceKind idx previous block = .ok ()) :
    Accepted isUuid sourceKind block ∧ ∀ e ∈ previous, e ≤ block.sourceStartOffset := by
  unfold validateBlock at h
  obtain ⟨_, -, h⟩ := bind_eq_ok.1 h
  obtain ⟨_, -, h⟩ := bind_eq_ok.1 h
  obtain ⟨_, -, h⟩ := bind_eq_ok.1 h
  obtain ⟨_, -, h⟩ := bind_eq_ok.1 h
  obtain ⟨_, -, h⟩ := bind_eq_ok.1 h
  obtain ⟨_, hlength, h⟩ := bind_eq_ok.1 h
  obtain ⟨_, hsorted, h⟩ := bind_eq_ok.1 h
  obtain ⟨_, -, h⟩ := bind_eq_ok.1 h
  obtain ⟨_, hlocator, -⟩ := bind_eq_ok.1 h
  refine ⟨⟨by simpa using require_eq_ok.1 hlength, hlocator⟩, fun e he => ?_⟩
  have hle := (Option.all_eq_true _ _).1 (require_eq_ok.1 hsorted) e he
  simpa using hle

theorem accepted_of_validateBlocksFrom (h : validateBlocksFrom isUuid owner sourceKind idx previous blocks = .ok ()) :
    (∀ b ∈ blocks, Accepted isUuid sourceKind b ∧ ∀ e ∈ previous, e ≤ b.sourceStartOffset) ∧
      blocks.Pairwise fun b b' => b.sourceEndOffset ≤ b'.sourceStartOffset := by
  induction blocks generalizing idx previous with
  | nil => exact ⟨List.forall_mem_nil _, .nil⟩
  | cons b blocks ih =>
    unfold validateBlocksFrom at h
    obtain ⟨_, hfirst, hrest⟩ := bind_eq_ok.1 h
    obtain ⟨haccepted, hprevious⟩ := accepted_of_validateBlock hfirst
    obtain ⟨hall, hsorted⟩ := ih hrest
    refine ⟨List.forall_mem_cons.2 ⟨⟨haccepted, hprevious⟩, fun c hc => ⟨(hall c hc).1, fun e he => ?_⟩⟩,
      List.pairwise_cons.2 ⟨fun c hc => (hall c hc).2 _ rfl, hsorted⟩⟩
    have hlength := haccepted.length
    have hstart := hprevious e he
    have hend := (hall c hc).2 _ rfl
    omega

theorem accepted_of_validateBlocks (h : validateBlocks isUuid owner sourceKind blocks = .ok ()) :
    (∀ b ∈ blocks, Accepted isUuid sourceKind b) ∧
      blocks.Pairwise fun b b' => b.sourceEndOffset ≤ b'.sourceStartOffset :=
  ⟨fun b hb => ((accepted_of_validateBlocksFrom h).1 b hb).1, (accepted_of_validateBlocksFrom h).2⟩

end Validate

/-! ## Words and pieces -/

section Pieces

variable {textValue : Text} {w : List (FindIter.Match Unit)} {piece : Piece}

theorem wordsOf_spec (textValue : Text) : (∀ m ∈ wordsOf textValue, m.start < m.stop ∧ m.stop ≤ textValue.length) ∧
    (wordsOf textValue).Pairwise fun m m' => m.stop ≤ m'.start := words_spec isPythonSpace textValue

theorem wordsOf_blank (h : pythonStrip textValue = []) : wordsOf textValue = [] := by
  obtain ⟨a, b, heq, ha, hb⟩ := strip_split textValue
  refine words_eq_nil fun c hc => ?_
  rw [heq, h, List.append_nil, List.mem_append] at hc
  exact hc.elim (ha c) (hb c)

/-- The words of a piece: all of a block's, or a window of them. -/
inductive PieceOf (textValue : Text) : List (FindIter.Match Unit) → Piece → Prop
  | whole : (wordsOf textValue).length ≤ chunkMaxTokens →
      PieceOf textValue (wordsOf textValue) ⟨0, textValue.length, (wordsOf textValue).length⟩
  | window {w : List (FindIter.Match Unit)} : chunkMaxTokens < (wordsOf textValue).length →
      w ∈ windows chunkMaxTokens (chunkMaxTokens - chunkOverlapTokens) (wordsOf textValue) → PieceOf textValue w (pieceOf w)

theorem exists_pieceOf (h : piece ∈ blockPieces textValue) : ∃ w, PieceOf textValue w piece := by
  unfold blockPieces at h
  dsimp only at h
  split at h
  next hshort =>
    obtain rfl := List.mem_singleton.1 h
    exact ⟨_, .whole hshort⟩
  next hlong =>
    obtain ⟨w, hw, rfl⟩ := List.mem_map.1 h
    exact ⟨w, .window (by omega) hw⟩

theorem isWindow_of_mem (hlong : chunkMaxTokens < (wordsOf textValue).length)
    (hw : w ∈ windows chunkMaxTokens (chunkMaxTokens - chunkOverlapTokens) (wordsOf textValue)) :
    ∃ i, IsWindow chunkMaxTokens (wordsOf textValue) i w :=
  exists_of_mem_windows (by decide) (by decide) (List.length_pos_iff.1 (by omega)) hw

theorem between_of_mem (hw : w.Pairwise fun m m' => m.stop ≤ m'.start) (hpos : ∀ m ∈ w, m.start < m.stop)
    {m : FindIter.Match Unit} (hm : m ∈ w) : (pieceOf w).startOffset ≤ m.start ∧ m.stop ≤ (pieceOf w).endOffset := by
  have hne : w ≠ [] := List.ne_nil_of_mem hm
  constructor
  · obtain ⟨a, l, rfl⟩ := List.exists_cons_of_ne_nil hne
    rcases List.mem_cons.1 hm with rfl | hml
    · exact Nat.le_refl _
    · have hle := (List.pairwise_cons.1 hw).1 m hml
      have hlt := hpos a List.mem_cons_self
      simp only [pieceOf, List.head?_cons, Option.elim_some]
      omega
  · rw [← List.dropLast_append_getLast hne, List.mem_append, List.mem_singleton] at hm
    simp only [pieceOf, List.getLast?_eq_some_getLast hne, Option.elim_some]
    rcases hm with hml | rfl
    · rw [← List.dropLast_append_getLast hne, List.pairwise_append] at hw
      have hle := hw.2.2 m hml _ (List.mem_singleton_self _)
      have hlt := hpos _ (List.getLast_mem hne)
      omega
    · exact Nat.le_refl _

theorem PieceOf.sublist (h : PieceOf textValue w piece) : w.Sublist (wordsOf textValue) := by
  cases h with
  | whole => exact List.Sublist.refl _
  | window hlong hw =>
    obtain ⟨i, hi⟩ := isWindow_of_mem hlong hw
    exact hi.sublist

theorem PieceOf.covers (h : PieceOf textValue w piece) {m : FindIter.Match Unit} (hm : m ∈ w) :
    piece.startOffset ≤ m.start ∧ m.stop ≤ piece.endOffset := by
  obtain ⟨hpos, hsorted⟩ := wordsOf_spec textValue
  have hsub := h.sublist
  cases h with
  | whole => exact ⟨Nat.zero_le _, (hpos m hm).2⟩
  | window => exact between_of_mem (hsorted.sublist hsub) (fun m hm => (hpos m (hsub.subset hm)).1) hm

theorem PieceOf.tokenCount_eq (h : PieceOf textValue w piece) : piece.tokenCount = w.length := by
  cases h <;> rfl

/-- A piece lies in its block, and has at most 420 words. -/
structure PieceBounds (textValue : Text) (piece : Piece) : Prop where
  start_le : piece.startOffset ≤ piece.endOffset
  end_le : piece.endOffset ≤ textValue.length
  tokens_le : piece.tokenCount ≤ chunkMaxTokens

theorem bounds_of_mem (h : piece ∈ blockPieces textValue) : PieceBounds textValue piece := by
  obtain ⟨w, hw⟩ := exists_pieceOf h
  have hpos := (wordsOf_spec textValue).1
  have hsub := hw.sublist
  cases hw with
  | whole hshort => exact ⟨Nat.zero_le _, Nat.le_refl _, hshort⟩
  | window hlong hmem =>
    obtain ⟨i, hi⟩ := isWindow_of_mem hlong hmem
    obtain ⟨m, hm⟩ := List.exists_mem_of_ne_nil w (hi.ne_nil (by decide))
    have hcovers := (PieceOf.window hlong hmem).covers hm
    have hm := hpos m (hsub.subset hm)
    refine ⟨by omega, ?_, hi.length_le⟩
    have hne := hi.ne_nil (by decide)
    have hlast := hpos _ (hsub.subset (List.getLast_mem hne))
    simp only [pieceOf, List.getLast?_eq_some_getLast hne, Option.elim_some]
    exact hlast.2

theorem exists_piece_of_word {m : FindIter.Match Unit} (hm : m ∈ wordsOf textValue) :
    ∃ piece ∈ blockPieces textValue, piece.tokenCount ≠ 0 ∧ piece.startOffset ≤ m.start ∧ m.stop ≤ piece.endOffset := by
  have hcovered : ∃ w piece, piece ∈ blockPieces textValue ∧ PieceOf textValue w piece ∧ m ∈ w := by
    unfold blockPieces
    dsimp only
    split
    next hshort => exact ⟨_, _, List.mem_singleton_self _, .whole hshort, hm⟩
    next hlong =>
      have hstep : chunkMaxTokens - chunkOverlapTokens ≠ 0 := by decide
      obtain ⟨w, hw, hmw⟩ := exists_window hstep (Nat.sub_le chunkMaxTokens chunkOverlapTokens) hm
      exact ⟨w, _, List.mem_map_of_mem hw, .window (by omega) hw, hmw⟩
  obtain ⟨w, piece, hpiece, hw, hmw⟩ := hcovered
  refine ⟨piece, hpiece, ?_, hw.covers hmw⟩
  rw [hw.tokenCount_eq]
  exact (List.length_pos_of_mem hmw).ne'

/-! ## Pieces in a row -/

def Piece.has (p : Piece) (m : FindIter.Match Unit) : Bool := p.startOffset ≤ m.start && m.stop ≤ p.endOffset

theorem Piece.has_iff {p : Piece} {m : FindIter.Match Unit} : p.has m = true ↔ p.startOffset ≤ m.start ∧ m.stop ≤ p.endOffset := by
  simp [Piece.has]

/-- How many words of a text are in both pieces. -/
def overlap (textValue : Text) (p p' : Piece) : Nat := (wordsOf textValue).countP fun m => p.has m && p'.has m

theorem next_windows {w' : List (FindIter.Match Unit)}
    (h : Next chunkMaxTokens (chunkMaxTokens - chunkOverlapTokens) (wordsOf textValue) w w') :
    (pieceOf w).startOffset < (pieceOf w').startOffset ∧ overlap textValue (pieceOf w) (pieceOf w') = chunkOverlapTokens := by
  obtain ⟨hpos, hsorted⟩ := wordsOf_spec textValue
  obtain ⟨⟨i, hi⟩, i', hi'⟩ := h.isWindow (by decide)
  have hbetween {m : FindIter.Match Unit} (hm : m ∈ w) :=
    between_of_mem (hsorted.sublist hi.sublist) (fun m hm => (hpos m (hi.sublist.subset hm)).1) hm
  have hbetween' {m : FindIter.Match Unit} (hm : m ∈ w') :=
    between_of_mem (hsorted.sublist hi'.sublist) (fun m hm => (hpos m (hi'.sublist.subset hm)).1) hm
  clear hi hi'
  obtain ⟨before, own, shared, after, rest, hwords, hown, hshared, rfl, rfl⟩ := h.shared (by decide)
  rw [overlap, hwords]
  rw [hwords] at hpos hsorted
  have hne : shared ≠ [] := List.length_pos_iff.1 (by rw [hshared]; decide)
  obtain ⟨o, own, rfl⟩ := List.exists_cons_of_ne_nil (List.length_pos_iff.1 (by rw [hown]; decide : 0 < own.length))
  obtain ⟨-, hsortedRest, hbefore⟩ := List.pairwise_append.1 hsorted
  obtain ⟨-, hsortedRest, hownApart⟩ := List.pairwise_append.1 hsortedRest
  obtain ⟨-, -, hafter⟩ := List.pairwise_append.1 hsortedRest
  have hstart : (pieceOf (shared ++ rest)).startOffset = (shared.head hne).start := by
    obtain ⟨a, l, rfl⟩ := List.exists_cons_of_ne_nil hne
    rfl
  have hend : (pieceOf (o :: own ++ shared)).endOffset = (shared.getLast hne).stop := by
    simp only [pieceOf, List.getLast?_append_of_ne_nil _ hne, List.getLast?_eq_some_getLast hne, Option.elim_some]
  have hhead : shared.head hne ∈ shared ++ after := List.mem_append_left _ (List.head_mem hne)
  constructor
  · have hapart := hownApart o List.mem_cons_self _ hhead
    have ho := (hpos o (by simp)).1
    rw [hstart]
    simp only [pieceOf, List.cons_append, List.head?_cons, Option.elim_some]
    omega
  · have hleft (l : List (FindIter.Match Unit)) (hl : ∀ m ∈ l, m.start < m.stop ∧ m.stop ≤ (shared.head hne).start) :
        l.countP (fun m => (pieceOf (o :: own ++ shared)).has m && (pieceOf (shared ++ rest)).has m) = 0 := by
      refine List.countP_eq_zero.2 fun m hm => ?_
      have hm := hl m hm
      rw [Bool.and_eq_true, Piece.has_iff, Piece.has_iff]
      omega
    have hright : after.countP (fun m => (pieceOf (o :: own ++ shared)).has m && (pieceOf (shared ++ rest)).has m) = 0 := by
      refine List.countP_eq_zero.2 fun m hm => ?_
      have hle := hafter _ (List.getLast_mem hne) m hm
      have hlt := (hpos m (by simp [hm])).1
      rw [Bool.and_eq_true, Piece.has_iff, Piece.has_iff]
      omega
    have hboth : shared.countP (fun m => (pieceOf (o :: own ++ shared)).has m && (pieceOf (shared ++ rest)).has m) =
        shared.length := by
      refine List.countP_eq_length.2 fun m hm => ?_
      rw [Bool.and_eq_true, Piece.has_iff, Piece.has_iff]
      exact ⟨hbetween (List.mem_append_right _ hm), hbetween' (List.mem_append_left _ hm)⟩
    have hposBefore : ∀ m ∈ before, m.start < m.stop ∧ m.stop ≤ (shared.head hne).start := fun m hm =>
      ⟨(hpos m (List.mem_append_left _ hm)).1, hbefore m hm _ (List.mem_append_right _ hhead)⟩
    have hposOwn : ∀ m ∈ o :: own, m.start < m.stop ∧ m.stop ≤ (shared.head hne).start := fun m hm =>
      ⟨(hpos m (List.mem_append_right _ (List.mem_append_left _ hm))).1, hownApart m hm _ hhead⟩
    rw [List.countP_append, List.countP_append, List.countP_append, hleft before hposBefore, hleft (o :: own) hposOwn,
      hboth, hright, hshared]
    rfl

theorem blockPieces_of_lt (hlong : chunkMaxTokens < (wordsOf textValue).length) :
    blockPieces textValue = (windows chunkMaxTokens (chunkMaxTokens - chunkOverlapTokens) (wordsOf textValue)).map pieceOf := by
  unfold blockPieces
  exact if_neg (by omega)

/-- **Two pieces in a row of an over-long block share exactly 60 words.** -/
theorem overlap_blockPieces (hlong : chunkMaxTokens < (wordsOf textValue).length) :
    (blockPieces textValue).IsChain fun p p' => overlap textValue p p' = chunkOverlapTokens := by
  rw [blockPieces_of_lt hlong, List.isChain_map]
  exact (isChain_windows (by decide)).imp fun _ _ h => (next_windows h).2

theorem pairwise_blockPieces (textValue : Text) :
    (blockPieces textValue).Pairwise fun p p' => p.startOffset < p'.startOffset := by
  by_cases hlong : chunkMaxTokens < (wordsOf textValue).length
  · rw [blockPieces_of_lt hlong]
    have hchain : ((windows chunkMaxTokens (chunkMaxTokens - chunkOverlapTokens) (wordsOf textValue)).map pieceOf).IsChain
        fun p p' => p.startOffset < p'.startOffset := by
      rw [List.isChain_map]
      exact (isChain_windows (by decide)).imp fun _ _ h => (next_windows h).1
    have : IsTrans Piece fun p p' => p.startOffset < p'.startOffset := ⟨fun _ _ _ => lt_trans⟩
    exact hchain.pairwise
  · have hone : blockPieces textValue = [⟨0, textValue.length, (wordsOf textValue).length⟩] := by
      unfold blockPieces
      exact if_pos (by omega)
    rw [hone]
    exact List.pairwise_singleton _ _

theorem tokenCount_ne_zero_of_lt (hlong : chunkMaxTokens < (wordsOf textValue).length) (h : piece ∈ blockPieces textValue) :
    piece.tokenCount ≠ 0 := by
  rw [blockPieces_of_lt hlong] at h
  obtain ⟨w, hw, rfl⟩ := List.mem_map.1 h
  obtain ⟨i, hi⟩ := isWindow_of_mem hlong hw
  exact (List.length_pos_iff.2 (hi.ne_nil (by decide))).ne'

theorem start_lt_of_tokenCount (h : piece ∈ blockPieces textValue) (htokens : piece.tokenCount ≠ 0) :
    piece.startOffset < piece.endOffset := by
  obtain ⟨w, hw⟩ := exists_pieceOf h
  rw [hw.tokenCount_eq] at htokens
  obtain ⟨m, hm⟩ := List.exists_mem_of_length_pos (Nat.pos_of_ne_zero htokens)
  have hcovers := hw.covers hm
  have hpos := (wordsOf_spec textValue).1 m (hw.sublist.subset hm)
  omega

end Pieces

/-! ## Parts -/

section Parts

variable {isUuid : Text → Bool} {sourceKind : SourceKind} {b : IndexableBlock} {blocks blocks' : List IndexableBlock} {p : Part}

/-- Where a part begins in the source. -/
def Part.sourceStart (p : Part) : Int := p.block.sourceStartOffset + p.piece.startOffset

theorem mem_partsOf : p ∈ partsOf blocks ↔ p.block ∈ blocks ∧ pythonStrip p.block.canonicalText ≠ [] ∧
    p.piece ∈ blockPieces p.block.canonicalText ∧ p.piece.tokenCount ≠ 0 := by
  simp only [partsOf, List.mem_flatMap, List.mem_filter, List.mem_map, Bool.not_eq_true', List.isEmpty_eq_false_iff, bne_iff_ne]
  constructor
  · rintro ⟨b, ⟨hb, hblank⟩, piece, ⟨hpiece, htokens⟩, rfl⟩
    exact ⟨hb, hblank, hpiece, htokens⟩
  · rintro ⟨hb, hblank, hpiece, htokens⟩
    exact ⟨p.block, ⟨hb, hblank⟩, p.piece, ⟨hpiece, htokens⟩, rfl⟩

theorem partsOf_append : partsOf (blocks ++ blocks') = partsOf blocks ++ partsOf blocks' := by
  rw [partsOf, List.filter_append, List.flatMap_append]
  rfl

theorem exists_part_of_word (hb : b ∈ blocks) {start stop : Nat} (h : IsWord isPythonSpace b.canonicalText start stop) :
    ∃ p ∈ partsOf blocks, p.block = b ∧ p.piece.startOffset ≤ start ∧ stop ≤ p.piece.endOffset := by
  have hm : ⟨(), start, stop⟩ ∈ wordsOf b.canonicalText := mem_words_of_isWord h
  obtain ⟨piece, hpiece, htokens, hcovers⟩ := exists_piece_of_word hm
  refine ⟨⟨b, piece⟩, mem_partsOf.2 ⟨hb, fun hblank => ?_, hpiece, htokens⟩, rfl, hcovers⟩
  rw [wordsOf_blank hblank] at hm
  cases hm

/-- **The parts follow the source.** -/
theorem pairwise_partsOf (haccepted : ∀ b ∈ blocks, Accepted isUuid sourceKind b)
    (hsorted : blocks.Pairwise fun b b' => b.sourceEndOffset ≤ b'.sourceStartOffset) :
    (partsOf blocks).Pairwise fun p p' => p.sourceStart < p'.sourceStart := by
  refine List.pairwise_flatMap.2 ⟨fun b hb => ?_, ?_⟩
  · refine List.pairwise_map.2 (((pairwise_blockPieces b.canonicalText).sublist List.filter_sublist).imp fun h => ?_)
    simp only [Part.sourceStart]
    omega
  · refine List.Pairwise.imp_of_mem (fun {b b'} hb hb' h p hp p' hp' => ?_) (hsorted.sublist List.filter_sublist)
    obtain ⟨piece, hpiece, rfl⟩ := List.mem_map.1 hp
    obtain ⟨piece', -, rfl⟩ := List.mem_map.1 hp'
    obtain ⟨hpiece, htokens⟩ := List.mem_filter.1 hpiece
    have hlt := start_lt_of_tokenCount hpiece (by simpa using htokens)
    have hend := (bounds_of_mem hpiece).end_le
    have hlength := (haccepted b (List.mem_of_mem_filter hb)).length
    simp only [Part.sourceStart]
    omega

theorem filter_partsOf (haccepted : ∀ b ∈ blocks, Accepted isUuid sourceKind b)
    (hsorted : blocks.Pairwise fun b b' => b.sourceEndOffset ≤ b'.sourceStartOffset) (hb : b ∈ blocks)
    (hlong : chunkMaxTokens < (wordsOf b.canonicalText).length) :
    (partsOf blocks).filter (fun p => p.block = b) = (blockPieces b.canonicalText).map (Part.mk b) := by
  have hblank : pythonStrip b.canonicalText ≠ [] := by
    intro hblank
    rw [wordsOf_blank hblank] at hlong
    exact absurd hlong (by decide)
  have hlength := (haccepted b hb).length
  have hnonempty : b.canonicalText ≠ [] := by
    intro hempty
    rw [hempty] at hblank
    exact hblank rfl
  have hpos := List.length_pos_iff.2 hnonempty
  obtain ⟨l, r, rfl⟩ := List.append_of_mem hb
  obtain ⟨-, hrest, hleft⟩ := List.pairwise_append.1 hsorted
  have hright := (List.pairwise_cons.1 hrest).1
  have hnone (l' : List IndexableBlock) (hl' : b ∉ l') : (partsOf l').filter (fun p => p.block = b) = [] := by
    refine List.filter_eq_nil_iff.2 fun p hp => ?_
    rw [decide_eq_true_eq]
    rintro rfl
    exact hl' (mem_partsOf.1 hp).1
  have hnotLeft : b ∉ l := fun hmem => by
    have hle := hleft b hmem b List.mem_cons_self
    omega
  have hnotRight : b ∉ r := fun hmem => by
    have hle := hright b hmem
    omega
  have hown : partsOf [b] = (blockPieces b.canonicalText).map (Part.mk b) := by
    have hkept : [b].filter (fun block => !(pythonStrip block.canonicalText).isEmpty) = [b] := by simp [hblank]
    have hall : (blockPieces b.canonicalText).filter (fun piece => piece.tokenCount != 0) = blockPieces b.canonicalText :=
      List.filter_eq_self.2 fun piece hpiece => by simpa using tokenCount_ne_zero_of_lt hlong hpiece
    rw [partsOf, hkept, List.flatMap_singleton, hall]
  have hself : ((blockPieces b.canonicalText).map (Part.mk b)).filter (fun p => p.block = b) =
      (blockPieces b.canonicalText).map (Part.mk b) := by
    refine List.filter_eq_self.2 fun p hp => ?_
    obtain ⟨piece, -, rfl⟩ := List.mem_map.1 hp
    exact decide_eq_true rfl
  rw [List.append_cons, List.append_assoc, partsOf_append, partsOf_append, List.filter_append, List.filter_append,
    hnone l hnotLeft, hnone r hnotRight, hown, hself, List.nil_append, List.append_nil]

end Parts

end Nexus.Indexing
