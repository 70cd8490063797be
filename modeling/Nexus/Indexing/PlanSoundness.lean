/-
What a plan of a content index promises (`Sound`), and that every accepted list
of blocks whose offsets advance with the source has such a plan
(`exists_sound_plan`).

Two kinds of accepted lists have no plan, both on purpose: a locator that only a
selector may have, and two blocks of one note.
-/
import Nexus.Indexing.ChunkLocators

namespace Nexus.Indexing
open ExceptFacts WordRuns Coalesce

/-! ## Published rows -/

/-- A row's part of the chunk's text is its part of the block's. -/
structure RowOf (text : Text) (p : Part) (row : ContentChunkPart) : Prop where
  block : row.blockIdx = p.block.blockIdx
  piece : row.blockStartOffset = p.piece.startOffset ∧ row.blockEndOffset = p.piece.endOffset
  slice : (text.take row.chunkEndOffset).drop row.chunkStartOffset = p.text

theorem chunkPartRows_spec {parts : List Part} (hin : ∀ p ∈ parts, p.InBlock) (partIdx : Nat) (done : Text)
    (previous : Option IndexableBlock) :
    (chunkPartRows partIdx done.length previous parts).2 = (done ++ chunkTextFrom previous parts).length ∧
      List.Forall₂ (RowOf (done ++ chunkTextFrom previous parts)) parts (chunkPartRows partIdx done.length previous parts).1 := by
  induction parts generalizing partIdx done previous with
  | nil => exact ⟨by rw [chunkTextFrom, List.append_nil]; rfl, .nil⟩
  | cons p parts ih =>
    have hlength := (hin p List.mem_cons_self).length_text
    have hle := (hin p List.mem_cons_self).start_le
    have hdone : (done ++ separatorBefore previous p.block ++ p.text).length =
        done.length + (separatorBefore previous p.block).length + p.piece.endOffset - p.piece.startOffset := by
      rw [List.length_append, List.length_append]
      omega
    have htext : done ++ chunkTextFrom previous (p :: parts) =
        done ++ separatorBefore previous p.block ++ p.text ++ chunkTextFrom (.some p.block) parts := by
      rw [chunkTextFrom]
      simp only [List.append_assoc]
    obtain ⟨hstop, hrows⟩ := ih (fun q hq => hin q (List.mem_cons_of_mem _ hq)) (partIdx + 1)
      (done ++ separatorBefore previous p.block ++ p.text) (.some p.block)
    rw [hdone] at hstop hrows
    rw [htext, chunkPartRows]
    refine ⟨hstop, .cons ⟨rfl, ⟨rfl, rfl⟩, ?_⟩ hrows⟩
    dsimp only
    rw [← hdone, List.take_left', ← List.length_append, List.drop_left']
    all_goals rfl

/-! ## Embeddings -/

section Plan

variable {ε : Type} {isUuid : Text → Bool} {service : EmbeddingService ε} {owner : IndexOwner} {sourceKind : SourceKind}
  {blocks : List IndexableBlock} {p : Part} {chunk : List Part}

/-- One embedding for each text, of the configured model and dimensions. -/
def EmbeddingService.Configured (service : EmbeddingService ε) : Prop :=
  ∀ texts, texts ≠ [] → (service.buildTextEmbeddings texts).1 = service.model ∧
    (service.buildTextEmbeddings texts).2.length = texts.length ∧
      ∀ embedding ∈ (service.buildTextEmbeddings texts).2, embedding.length = service.dimensions

theorem embedChunks_eq_ok (h : service.Configured) (texts : List Text) :
    ∃ embeddings, embedChunks service texts = .ok embeddings ∧ embeddings.length = texts.length := by
  by_cases hempty : texts = []
  · subst hempty
    exact ⟨[], rfl, rfl⟩
  · obtain ⟨hmodel, hlength, hdimensions⟩ := h texts hempty
    refine ⟨_, ?_, hlength⟩
    unfold embedChunks
    rw [if_neg (by simpa using hempty)]
    have hall : (service.buildTextEmbeddings texts).2.all (fun embedding => embedding.length == service.dimensions) = true :=
      List.all_eq_true.2 fun e he => beq_iff_eq.2 (hdimensions e he)
    simp [require, hmodel, hlength, hall, bind, Except.bind]

/-! ## Locators -/

/-- Where a chunk is: at its parts' anchor, with its text between its offsets. -/
structure Located (isUuid : Text → Bool) (sourceKind : SourceKind) (blocks : List IndexableBlock) (chunk : List Part)
    (locator : Locator) : Prop where
  anchored : ∀ p ∈ chunk, p.block.place.kind = locator.place.kind ∧ p.block.place.anchor = locator.place.anchor
  validates : validateSelector isUuid (chunkText chunk) "content chunk summary locator" sourceKind locator = .ok ()
  reads : ∀ axis ∈ locator.place.axes, ∃ start stop, locator.place.start? axis = .some start ∧
    locator.place.stop? axis = .some stop ∧
      Reads (blocks.filter fun b => sameAnchor locator b.locator) (fun b => b.place.start? axis) start stop (chunkText chunk)

theorem axes_eq {place place' : Place} (h : place.kind = place'.kind) : place.axes = place'.axes := by
  revert h
  cases place <;> cases place' <;> simp [Place.kind, Place.axes]

/-- The blocks of a list that can be planned. -/
structure Plannable (isUuid : Text → Bool) (sourceKind : SourceKind) (blocks : List IndexableBlock) : Prop where
  accepted : ∀ b ∈ blocks, Accepted isUuid sourceKind b
  sorted : blocks.Pairwise fun b b' => b.sourceEndOffset ≤ b'.sourceStartOffset
  advances : Advances blocks
  built : Built blocks

/-- **Every chunk is located.** -/
theorem locateChunk_eq_ok (h : Plannable isUuid sourceKind blocks) (hchain : (p :: chunk).IsChain fun p p' => joins p p' = true)
    (hin : ∀ p' ∈ p :: chunk, p'.InBlock) (hmem : ∀ p' ∈ p :: chunk, p'.block ∈ blocks) :
    ∃ locator, locateChunk isUuid sourceKind (p :: chunk) = .ok locator ∧ Located isUuid sourceKind blocks (p :: chunk) locator := by
  have hsame (q : Part) (hq : q ∈ p :: chunk) := anchored_of_isChain hchain hq
  have hfirst := hmem p List.mem_cons_self
  have hlast : (p :: chunk).getLast (List.cons_ne_nil p chunk) ∈ p :: chunk := List.getLast_mem _
  have hnote (hkind : p.block.place.kind = .noteText) : ((p :: chunk).getLast (List.cons_ne_nil p chunk)).block = p.block :=
    h.built.note _ hfirst _ (hmem _ hlast) hkind ((hsame _ hlast).1.trans hkind) (hsame _ hlast).2.symm
  obtain ⟨place, hplace, hspans⟩ := spans_chunkPlace (h.built.kind _ hfirst) hsame hlast hnote
  have hlocator : chunkLocator (p :: chunk) (chunkText (p :: chunk)) = .ok ⟨place, chunkText (p :: chunk)⟩ := by
    unfold chunkLocator
    rw [List.head?_cons, List.getLast?_eq_some_getLast (List.cons_ne_nil p chunk)]
    dsimp only
    rw [hplace]
    rfl
  have hanchored (b : IndexableBlock) : b ∈ blocks.filter (fun b => sameAnchor ⟨place, chunkText (p :: chunk)⟩ b.locator) ↔
      b ∈ blocks ∧ p.block.place.kind = b.place.kind ∧ p.block.place.anchor = b.place.anchor := by
    simp [sameAnchor, hspans.kind, hspans.anchor, IndexableBlock.place]
  have hreads (axis : Axis) (haxis : axis ∈ place.axes) : ∃ s e, p.block.place.start? axis = .some s ∧
      place.start? axis = .some (s + p.piece.startOffset) ∧ place.stop? axis = .some e ∧
        Reads (blocks.filter fun b => sameAnchor ⟨place, chunkText (p :: chunk)⟩ b.locator) (fun b => b.place.start? axis)
          (s + p.piece.startOffset) e (chunkText (p :: chunk)) := by
    rw [axes_eq hspans.kind] at haxis
    obtain ⟨s, e, hs, he, hreads⟩ := reads_chunkText (fun b => b.place.start? axis) h.accepted h.sorted
      (fun b hb => ((hanchored b).1 hb).1)
      (fun b hb b' hb' => by
        obtain ⟨hb, hkind, hanchor⟩ := (hanchored b).1 hb
        obtain ⟨hb', hkind', hanchor'⟩ := (hanchored b').1 hb'
        have haxis := axes_eq hkind ▸ haxis
        obtain ⟨s, hs⟩ := Option.isSome_iff_exists.1 (h.built.offsets b hb axis haxis)
        obtain ⟨s', hs'⟩ := Option.isSome_iff_exists.1 (h.built.offsets b' hb' axis (axes_eq (hkind.symm.trans hkind') ▸ haxis))
        obtain rfl := h.advances b hb b' hb' (hkind.symm.trans hkind') (hanchor.symm.trans hanchor') axis haxis s hs s' hs'
        exact ⟨s, hs, hs'⟩)
      hchain hin (fun q hq => (hanchored _).2 ⟨hmem q hq, (hsame q hq).1.symm, (hsame q hq).2.symm⟩)
    obtain ⟨hstart, hstop⟩ := hspans.offsets axis (axes_eq hspans.kind ▸ haxis) s e hs he
    exact ⟨s, _, hs, hstart, hstop, hreads⟩
  have hvalid : place.Valid isUuid sourceKind (chunkText (p :: chunk)).length := by
    obtain ⟨-, hvalid⟩ := validateSelector_eq_ok.1 (h.accepted _ hfirst).locator
    refine ⟨hspans.kind ▸ hvalid.located, hspans.anchor ▸ hvalid.anchor, hspans.physical ▸ hvalid.physical,
      fun axis haxis => ?_, hspans.geometry hvalid.geometry⟩
    obtain ⟨s, e, hs, hstart, hstop, hreads⟩ := hreads axis haxis
    obtain ⟨hnone, -⟩ | ⟨s', hpos, hs', -⟩ := hvalid.offsets axis (axes_eq hspans.kind ▸ haxis)
    · cases hs.symm.trans hnone
    · obtain rfl := Option.some.inj (hs.symm.trans hs')
      exact .inr ⟨_, by omega, hstart, hreads.stop_eq ▸ hstop⟩
  have hvalidates : validateSelector isUuid (chunkText (p :: chunk)) "content chunk summary locator" sourceKind
      ⟨place, chunkText (p :: chunk)⟩ = .ok () := validateSelector_eq_ok.2 ⟨rfl, hvalid⟩
  refine ⟨_, ?_, ⟨fun q hq => ?_, hvalidates, fun axis haxis => ?_⟩⟩
  · unfold locateChunk
    rw [hlocator]
    exact bind_eq_ok.2 ⟨_, rfl, bind_eq_ok.2 ⟨_, hvalidates, rfl⟩⟩
  · exact ⟨(hsame q hq).1.trans hspans.kind.symm, (hsame q hq).2.trans hspans.anchor.symm⟩
  · obtain ⟨s, e, -, hstart, hstop, hreads⟩ := hreads axis haxis
    exact ⟨_, _, hstart, hstop, hreads⟩

/-! ## Plans -/

/-- What a plan promises of its chunks. -/
structure Sound (isUuid : Text → Bool) (sourceKind : SourceKind) (blocks : List IndexableBlock) (plan : ContentIndexPlan ε) :
    Prop where
  /-- Every word of a block is in a part of a chunk. -/
  covers : ∀ b ∈ blocks, ∀ start stop, IsWord isPythonSpace b.canonicalText start stop →
    ∃ c ∈ plan.chunks, ∃ p ∈ c.parts, p.block = b ∧ p.piece.startOffset ≤ start ∧ stop ≤ p.piece.endOffset
  /-- A chunk's text is the source's from where its first part begins. -/
  contiguous : ∀ c ∈ plan.chunks, ∃ p, c.parts.head? = .some p ∧
    Reads blocks (fun b => .some b.sourceStartOffset) p.sourceStart (p.sourceStart + c.text.length) c.text
  /-- It is the text of its fragment, page or note between the offsets of its locator. -/
  located : ∀ c ∈ plan.chunks, ∀ axis ∈ c.locator.place.axes, ∃ start stop, c.locator.place.start? axis = .some start ∧
    c.locator.place.stop? axis = .some stop ∧
      Reads (blocks.filter fun b => sameAnchor c.locator b.locator) (fun b => b.place.start? axis) start stop c.text
  validates : ∀ c ∈ plan.chunks,
    validateSelector isUuid c.text "content chunk summary locator" sourceKind c.locator = .ok ()
  published : ∀ c ∈ plan.chunks, ∃ rows, publishParts c = .ok rows ∧ List.Forall₂ (RowOf c.text) c.parts rows ∧
    (rows.flatMap fun row => (c.text.take row.chunkEndOffset).drop row.chunkStartOffset) = c.text
  anchored : ∀ c ∈ plan.chunks, ∀ p ∈ c.parts, p.block ∈ blocks ∧ p.block.place.kind = c.locator.place.kind ∧
    p.block.place.anchor = c.locator.place.anchor
  bounded : ∀ c ∈ plan.chunks, c.tokenCount ≤ chunkMaxTokens
  ordered : (plan.chunks.flatMap PlannedContentChunk.parts).Pairwise fun p p' => p.sourceStart < p'.sourceStart
  overlapped : ∀ b ∈ blocks, chunkMaxTokens < (wordsOf b.canonicalText).length →
    ((plan.chunks.flatMap PlannedContentChunk.parts).filter fun p => p.block = b).IsChain fun p p' =>
      overlap b.canonicalText p.piece p'.piece = chunkOverlapTokens

/-- The chunks that the loop makes of a list. -/
abbrev chunksOf (blocks : List IndexableBlock) : List (List Part) := coalesce joins Part.tokens chunkMaxTokens (partsOf blocks)

/-- A chunk is parts that join, of blocks of the list. -/
structure IsChunk (blocks : List IndexableBlock) (chunk : List Part) : Prop where
  ne_nil : chunk ≠ []
  chain : chunk.IsChain fun p p' => joins p p' = true
  inBlock : ∀ p ∈ chunk, p.InBlock
  mem : ∀ p ∈ chunk, p.block ∈ blocks
  bounded : (chunk.map Part.tokens).sum ≤ chunkMaxTokens

theorem isChunk_of_mem (h : chunk ∈ chunksOf blocks) : IsChunk blocks chunk := by
  have hpart (p : Part) (hp : p ∈ chunk) : p ∈ partsOf blocks := by
    have hflatten : (chunksOf blocks).flatten = partsOf blocks := flatten_coalesce _
    rw [← hflatten]
    exact List.mem_flatten_of_mem h hp
  have hin (p : Part) (hp : p ∈ partsOf blocks) : p.InBlock := bounds_of_mem (mem_partsOf.1 hp).2.2.1
  obtain ⟨hne, hchain⟩ := isChain_of_mem_coalesce h
  exact ⟨hne, hchain, fun p hp => hin p (hpart p hp), fun p hp => (mem_partsOf.1 (hpart p hp)).1,
    weight_le_of_mem_coalesce (fun p hp => (hin p hp).tokens_le) h⟩

/-- The planned chunks are those of the loop, with their texts and locators. -/
structure Assembled (isUuid : Text → Bool) (sourceKind : SourceKind) (chunks : List (List Part)) (plan : ContentIndexPlan ε) :
    Prop where
  parts : plan.chunks.map PlannedContentChunk.parts = chunks
  text : ∀ c ∈ plan.chunks, c.text = chunkText c.parts
  locator : ∀ c ∈ plan.chunks, locateChunk isUuid sourceKind c.parts = .ok c.locator

theorem exists_assembled (hvalid : validateBlocks isUuid owner sourceKind blocks = .ok ()) (h : Plannable isUuid sourceKind blocks)
    (hservice : service.Configured) : ∃ plan, planContentIndex isUuid service owner sourceKind blocks = .ok plan ∧
      Assembled isUuid sourceKind (chunksOf blocks) plan := by
  have hparts : chunkParts (partsOf blocks) = .ok (chunksOf blocks) :=
    chunkParts_eq fun p hp => h.built.kind _ (mem_partsOf.1 hp).1
  obtain ⟨locators, hlocators⟩ := exists_mapM (f := locateChunk isUuid sourceKind) (l := chunksOf blocks) fun chunk hchunk => by
    have his := isChunk_of_mem hchunk
    obtain ⟨p, rest, rfl⟩ := List.exists_cons_of_ne_nil his.ne_nil
    obtain ⟨locator, hlocator, -⟩ := locateChunk_eq_ok h his.chain his.inBlock his.mem
    exact ⟨locator, hlocator⟩
  obtain ⟨embeddings, hembeddings, hlength⟩ := embedChunks_eq_ok hservice ((chunksOf blocks).map chunkText)
  have hall := mapM_eq_ok.1 hlocators
  have hlocatorsLength := hall.length_eq
  rw [List.length_map] at hlength
  refine ⟨_, bind_eq_ok.2 ⟨_, hvalid, bind_eq_ok.2 ⟨_, hparts, bind_eq_ok.2 ⟨_, hlocators, bind_eq_ok.2 ⟨_, hembeddings, rfl⟩⟩⟩⟩,
    ?_, fun c hc => ?_, fun c hc => ?_⟩
  · dsimp only
    rw [List.map_map]
    have hfst : (PlannedContentChunk.parts ∘ fun (parts, locator, embedding) => (⟨parts, chunkText parts, locator, embedding⟩ :
        PlannedContentChunk ε)) = Prod.fst := rfl
    rw [hfst, List.map_fst_zip]
    rw [List.length_zip]
    omega
  · obtain ⟨⟨parts, locator, embedding⟩, -, rfl⟩ := List.mem_map.1 hc
    rfl
  · obtain ⟨⟨parts, locator, embedding⟩, hmem, rfl⟩ := List.mem_map.1 hc
    obtain ⟨i, hi⟩ := List.mem_iff_getElem?.1 hmem
    obtain ⟨hi, hrest⟩ := List.getElem?_zip_eq_some.1 hi
    obtain ⟨hi', -⟩ := List.getElem?_zip_eq_some.1 hrest
    exact List.forall₂_zip hall (List.mem_of_getElem? (List.getElem?_zip_eq_some.2 ⟨hi, hi'⟩))

theorem flatMap_slice {text : Text} {parts : List Part} {rows : List ContentChunkPart}
    (h : List.Forall₂ (RowOf text) parts rows) :
    (rows.flatMap fun row => (text.take row.chunkEndOffset).drop row.chunkStartOffset) = parts.flatMap Part.text := by
  induction h with
  | nil => rfl
  | cons hrow _ ih => rw [List.flatMap_cons, List.flatMap_cons, hrow.slice, ih]

theorem IsChunk.published {c : PlannedContentChunk ε} (h : IsChunk blocks c.parts) (htext : c.text = chunkText c.parts) :
    ∃ rows, publishParts c = .ok rows ∧ List.Forall₂ (RowOf c.text) c.parts rows ∧
      (rows.flatMap fun row => (c.text.take row.chunkEndOffset).drop row.chunkStartOffset) = c.text := by
  obtain ⟨hstop, hrows⟩ := chunkPartRows_spec h.inBlock 0 [] .none
  rw [List.nil_append, ← chunkText, ← htext] at hstop hrows
  refine ⟨_, ?_, hrows, ?_⟩
  · have hrequire : require ((chunkPartRows 0 0 .none c.parts).2 == c.text.length)
        "Chunk part offsets do not reconstruct chunk text" = .ok () := require_eq_ok.2 (beq_iff_eq.2 hstop)
    unfold publishParts
    exact bind_eq_ok.2 ⟨_, hrequire, rfl⟩
  · rw [flatMap_slice hrows, htext]
    obtain ⟨p, rest, heq⟩ := List.exists_cons_of_ne_nil h.ne_nil
    have hchain := h.chain
    rw [heq] at hchain ⊢
    exact (chunkText_eq hchain).symm

theorem IsChunk.contiguous (hchunk : IsChunk blocks chunk) (h : Plannable isUuid sourceKind blocks) :
    ∃ p, chunk.head? = .some p ∧ Reads blocks (fun b => .some b.sourceStartOffset) p.sourceStart
      (p.sourceStart + (chunkText chunk).length) (chunkText chunk) := by
  obtain ⟨p, rest, rfl⟩ := List.exists_cons_of_ne_nil hchunk.ne_nil
  obtain ⟨s, e, hs, -, hreads⟩ := reads_chunkText (fun b => .some b.sourceStartOffset) h.accepted h.sorted
    (fun _ hb => hb) (fun b _ b' _ => ⟨b.sourceStartOffset, rfl, congrArg Option.some (by omega)⟩) hchunk.chain hchunk.inBlock
    hchunk.mem
  obtain rfl := Option.some.inj hs
  exact ⟨p, rfl, hreads.stop_eq ▸ hreads⟩

theorem Assembled.sound {plan : ContentIndexPlan ε} (hplan : Assembled isUuid sourceKind (chunksOf blocks) plan)
    (h : Plannable isUuid sourceKind blocks) : Sound isUuid sourceKind blocks plan := by
  have hchunk (c : PlannedContentChunk ε) (hc : c ∈ plan.chunks) : IsChunk blocks c.parts :=
    isChunk_of_mem (hplan.parts ▸ List.mem_map_of_mem hc)
  have hparts : plan.chunks.flatMap PlannedContentChunk.parts = partsOf blocks := by
    rw [List.flatMap_def, hplan.parts]
    exact flatten_coalesce _
  have hlocated (c : PlannedContentChunk ε) (hc : c ∈ plan.chunks) : Located isUuid sourceKind blocks c.parts c.locator := by
    have hlocate := hplan.locator c hc
    have his := hchunk c hc
    obtain ⟨p, rest, heq⟩ := List.exists_cons_of_ne_nil his.ne_nil
    rw [heq] at his hlocate ⊢
    obtain ⟨locator, hlocator, hat⟩ := locateChunk_eq_ok h his.chain his.inBlock his.mem
    obtain rfl := Except.ok.inj (hlocate.symm.trans hlocator)
    exact hat
  refine ⟨fun b hb start stop hword => ?_, fun c hc => ?_, fun c hc => ?_, fun c hc => ?_, fun c hc => ?_,
    fun c hc p hp => ?_, fun c hc => ?_, ?_, fun b hb hlong => ?_⟩
  · obtain ⟨p, hp, hcovers⟩ := exists_part_of_word hb hword
    rw [← hparts] at hp
    obtain ⟨c, hc, hp⟩ := List.mem_flatMap.1 hp
    exact ⟨c, hc, p, hp, hcovers⟩
  · rw [hplan.text c hc]
    exact (hchunk c hc).contiguous h
  · rw [hplan.text c hc]
    exact (hlocated c hc).reads
  · rw [hplan.text c hc]
    exact (hlocated c hc).validates
  · exact (hchunk c hc).published (hplan.text c hc)
  · exact ⟨(hchunk c hc).mem p hp, (hlocated c hc).anchored p hp⟩
  · exact (hchunk c hc).bounded
  · rw [hparts]
    exact pairwise_partsOf h.accepted h.sorted
  · rw [hparts, filter_partsOf h.accepted h.sorted hb hlong, List.isChain_map]
    exact overlap_blockPieces hlong

/-- **An accepted list whose offsets advance with the source, of blocks as the
builders make them, has a plan**, and its chunks are what they should be. -/
theorem exists_sound_plan (hvalid : validateBlocks isUuid owner sourceKind blocks = .ok ()) (hadvances : Advances blocks)
    (hbuilt : Built blocks) (hservice : service.Configured) :
    ∃ plan, planContentIndex isUuid service owner sourceKind blocks = .ok plan ∧ Sound isUuid sourceKind blocks plan := by
  obtain ⟨haccepted, hsorted⟩ := accepted_of_validateBlocks hvalid
  have h : Plannable isUuid sourceKind blocks := ⟨haccepted, hsorted, hadvances, hbuilt⟩
  obtain ⟨plan, hplan, hassembled⟩ := exists_assembled hvalid h hservice
  exact ⟨plan, hplan, hassembled.sound h⟩

end Plan

/-! ## Lists that are planned, and that are not -/

section Lists

def anId : Text := ['6', 'e']

def anOwner : IndexOwner := ⟨.media, 1⟩

def aService : EmbeddingService Int := ⟨['t'], ['m'], 2, fun texts => (['m'], texts.map fun _ => [1, 0])⟩

theorem configured_aService : aService.Configured := by
  refine fun texts _ => ⟨rfl, List.length_map _, fun embedding h => ?_⟩
  obtain ⟨_, -, rfl⟩ := List.mem_map.1 h
  rfl

/-- A block of a text in the source, from there on. -/
def aBlock (sourceKind : SourceKind) (idx : Nat) (start : Int) (text : Text) (place : Place) : IndexableBlock :=
  ⟨anOwner, sourceKind, idx, ['p'], text, .none, start, start + text.length, ⟨place, text⟩, ⟨place, text⟩⟩

/-- Two blocks of a fragment, one after the other. -/
def adjacent : List IndexableBlock :=
  [aBlock .webArticle 0 0 ['a', ' ', 'b'] (.webText ⟨anId, 5, 8⟩), aBlock .webArticle 1 3 ['c'] (.webText ⟨anId, 8, 9⟩)]

theorem exists_sound_plan_adjacent : ∃ plan, planContentIndex (fun t => t == anId) aService anOwner .webArticle adjacent = .ok plan ∧
    Sound (fun t => t == anId) .webArticle adjacent plan :=
  exists_sound_plan (by decide +kernel) (by decide +kernel) ⟨by decide +kernel, by decide +kernel, by decide +kernel⟩
    configured_aService

/-- A page's block with the locator of a quote. -/
def quoted : List IndexableBlock := [aBlock .pdf 0 0 ['a'] (.pdfTextQuote ⟨1, .none, 0, 1, .some 0, .some 1, .none⟩)]

def twice : List IndexableBlock :=
  [aBlock .note 0 0 ['a'] (.noteText ⟨anId, 0, 1⟩), aBlock .note 1 1 ['b'] (.noteText ⟨anId, 1, 2⟩)]

/-- A page's blocks that have no place in the plain text. -/
def placeless : List IndexableBlock :=
  [aBlock .pdf 0 0 ['a'] (.pdfText ⟨1, .none, 0, 1, .none, .none, .none⟩),
    aBlock .pdf 1 1 ['b'] (.pdfText ⟨1, .none, 1, 2, .none, .none, .none⟩)]

/-- What `planContentIndex` raises. -/
def raised (sourceKind : SourceKind) (blocks : List IndexableBlock) : Option String :=
  match planContentIndex (fun t => t == anId) aService anOwner sourceKind blocks with
  | .error message => .some message
  | .ok _ => .none

/-- **Accepted lists that advance with the source and have no plan.** -/
theorem not_planned : aService.Configured ∧
    (validateBlocks (fun t => t == anId) anOwner .pdf quoted = .ok () ∧ Advances quoted ∧
      raised .pdf quoted = .some "Unsupported locator kind: pdf_text_quote") ∧
    (validateBlocks (fun t => t == anId) anOwner .note twice = .ok () ∧ Advances twice ∧
      raised .note twice =
        .some "content chunk summary locator offsets do not match text length (start=0, end=1, text_length=2)") ∧
    validateBlocks (fun t => t == anId) anOwner .pdf placeless = .ok () ∧ Advances placeless ∧
      raised .pdf placeless = .some "content chunk summary locator plain text offsets are invalid" := by
  refine ⟨configured_aService, ⟨?_, ?_, ?_⟩, ⟨?_, ?_, ?_⟩, ?_, ?_, ?_⟩
  all_goals decide +kernel

end Lists

end Nexus.Indexing
