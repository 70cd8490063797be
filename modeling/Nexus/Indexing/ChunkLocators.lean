/-
Which locators the checks accept, and where a chunk's own locator says it is.

A locator is accepted if its kind is the source's, its anchor is well formed
and its offsets, on each axis that has any, are as far apart as the text is long
(`validateSelector_eq_ok`). The locator of a chunk keeps the kind and the anchor
of its parts, and goes from the first part's start to the last part's end
(`placed_chunkPlace`).
-/
import Nexus.Indexing.ChunkFacts

namespace Nexus.Indexing
open ExceptFacts

/-! ## Accepted locators -/

/-- Which kinds of locator a source has. -/
def SourceKind.locates : SourceKind → LocatorKind → Bool
  | .webArticle, .webText | .epub, .epubText | .pdf, .pdfText | .pdf, .pdfTextQuote => true
  | .transcript, .transcriptTimeText | .note, .noteText => true
  | _, _ => false

def Anchor.Valid (isUuid : Text → Bool) : Anchor → Prop
  | .fragment id | .note id => isUuid id = true
  | .page n => 1 ≤ n
  | .segment tStartMs tEndMs => 0 ≤ tStartMs ∧ tStartMs < tEndMs

structure Geometry.Valid (g : Geometry) : Prop where
  space : g.coordinateSpace = "pdf_points".toList
  size : 0 < g.pageWidth ∧ 0 < g.pageHeight
  rotation : 0 ≤ g.pageRotationDegrees

def Place.physicalPageNumber? : Place → Option Int
  | .pdfText s | .pdfTextQuote s => s.physicalPageNumber
  | _ => .none

def Place.geometry? : Place → Option Geometry
  | .pdfText s | .pdfTextQuote s => s.geometry
  | _ => .none

/-- Offsets of a text of this length, or none. -/
def Place.OffsetsAre (n : Nat) (place : Place) (axis : Axis) : Prop :=
  (place.start? axis = .none ∧ place.stop? axis = .none) ∨
    ∃ s : Int, 0 ≤ s ∧ place.start? axis = .some s ∧ place.stop? axis = .some (s + n)

structure Place.Valid (isUuid : Text → Bool) (sourceKind : SourceKind) (n : Nat) (place : Place) : Prop where
  located : sourceKind.locates place.kind = true
  anchor : place.anchor.Valid isUuid
  physical : ∀ m ∈ place.physicalPageNumber?, 1 ≤ m
  offsets : ∀ axis ∈ place.axes, place.OffsetsAre n axis
  geometry : ∀ g ∈ place.geometry?, g.Valid

section Validate

variable {isUuid : Text → Bool} {textValue : Text} {context : String} {u : Unit}

theorem bounds_iff {start stop : Int} {n : Nat} : (0 ≤ start ∧ start ≤ stop) ∧ stop - start = n ↔ 0 ≤ start ∧ stop = start + n := by
  omega

theorem validateFragmentSelector_eq_ok {s : FragmentPlace} : validateFragmentSelector isUuid textValue context s = .ok u ↔
    isUuid s.fragmentId = true ∧ 0 ≤ s.startOffset ∧ s.endOffset = s.startOffset + textValue.length := by
  rw [← bounds_iff]
  simp [validateFragmentSelector, bind_eq_ok, require_eq_ok]

theorem validateNoteSelector_eq_ok {s : NotePlace} : validateNoteSelector isUuid textValue context s = .ok u ↔
    isUuid s.noteBlockId = true ∧ 0 ≤ s.startOffset ∧ s.endOffset = s.startOffset + textValue.length := by
  rw [← bounds_iff]
  simp [validateNoteSelector, bind_eq_ok, require_eq_ok]

theorem validateTranscriptSelector_eq_ok {s : TranscriptPlace} :
    validateTranscriptSelector context s = .ok u ↔ 0 ≤ s.tStartMs ∧ s.tStartMs < s.tEndMs := by
  simp [validateTranscriptSelector, require_eq_ok]

theorem validatePdfGeometry_eq_ok {g : Geometry} : validatePdfGeometry context g = .ok u ↔ g.Valid := by
  have hfields : g.Valid ↔ g.coordinateSpace = "pdf_points".toList ∧ (0 < g.pageWidth ∧ 0 < g.pageHeight) ∧ 0 ≤ g.pageRotationDegrees :=
    ⟨fun h => ⟨h.space, h.size, h.rotation⟩, fun h => ⟨h.1, h.2.1, h.2.2⟩⟩
  rw [hfields]
  simp [validatePdfGeometry, bind_eq_ok, require_eq_ok]

theorem validatePlainOffsets_eq_ok {start stop : Option Int} : validatePlainOffsets textValue context start stop = .ok u ↔
    (start = .none ∧ stop = .none) ∨ ∃ s : Int, 0 ≤ s ∧ start = .some s ∧ stop = .some (s + textValue.length) := by
  cases start with
  | none => cases stop <;> simp [validatePlainOffsets]
  | some s =>
    cases stop with
    | none => simp [validatePlainOffsets]
    | some e =>
      have hbounds := @bounds_iff s e textValue.length
      simp only [validatePlainOffsets, require_eq_ok, Bool.and_eq_true, decide_eq_true_eq, beq_iff_eq, hbounds]
      simp

theorem validatePdfSelector_eq_ok {s : PdfPlace} : validatePdfSelector textValue context s = .ok u ↔
    1 ≤ s.pageNumber ∧ (∀ m ∈ s.physicalPageNumber, 1 ≤ m) ∧
      (0 ≤ s.pageTextStartOffset ∧ s.pageTextEndOffset = s.pageTextStartOffset + textValue.length) ∧
      ((s.plainTextStartOffset = .none ∧ s.plainTextEndOffset = .none) ∨ ∃ p : Int, 0 ≤ p ∧
        s.plainTextStartOffset = .some p ∧ s.plainTextEndOffset = .some (p + textValue.length)) ∧
      ∀ g ∈ s.geometry, g.Valid := by
  rw [← bounds_iff, ← @validatePlainOffsets_eq_ok textValue context ()]
  unfold validatePdfSelector
  simp only [bind_eq_ok, require_eq_ok, exists_const, Bool.and_eq_true, decide_eq_true_eq, beq_iff_eq, Option.all_eq_true]
  cases s.geometry with
  | none => simp [Unique.exists_iff, and_assoc]
  | some g => simp [validatePdfGeometry_eq_ok, Unique.exists_iff, and_assoc]

/-- **What the checks say of a locator.** -/
theorem validateSelector_eq_ok {sourceKind : SourceKind} {selector : Locator} :
    validateSelector isUuid textValue context sourceKind selector = .ok u ↔
      selector.exact = textValue ∧ selector.place.Valid isUuid sourceKind textValue.length := by
  obtain ⟨place, exact⟩ := selector
  have hvalid : place.Valid isUuid sourceKind textValue.length ↔ sourceKind.locates place.kind = true ∧ place.anchor.Valid isUuid ∧
      (∀ m ∈ place.physicalPageNumber?, 1 ≤ m) ∧ (∀ axis ∈ place.axes, place.OffsetsAre textValue.length axis) ∧
      ∀ g ∈ place.geometry?, g.Valid :=
    ⟨fun h => ⟨h.located, h.anchor, h.physical, h.offsets, h.geometry⟩, fun h => ⟨h.1, h.2.1, h.2.2.1, h.2.2.2.1, h.2.2.2.2⟩⟩
  rw [hvalid]
  unfold validateSelector
  simp only [bind_eq_ok, require_eq_ok, exists_const, beq_iff_eq]
  refine and_congr_right fun _ => ?_
  cases sourceKind <;> cases place <;>
    simp [SourceKind.locates, Place.kind, Place.anchor, Anchor.Valid, Place.axes, Place.OffsetsAre, Place.start?, Place.stop?,
      Place.physicalPageNumber?, Place.geometry?, validateFragmentSelector_eq_ok, validateNoteSelector_eq_ok,
      validateTranscriptSelector_eq_ok, validatePdfSelector_eq_ok, and_assoc]

end Validate

/-! ## The place of a chunk -/

theorem Geometry.Valid.projectGeometry {g : Geometry} (h : g.Valid) (pageStart fullPageTextEnd : Int) :
    (projectGeometry g pageStart fullPageTextEnd).Valid := by
  unfold Indexing.projectGeometry
  dsimp only
  split
  · split
    · exact ⟨h.space, h.size, h.rotation⟩
    · exact h
  · exact h

/-- A place from so far behind the start of one to so far behind the start of another. -/
structure Place.Spans (first last : Place) (start stop : Nat) (place : Place) : Prop where
  kind : place.kind = first.kind
  anchor : place.anchor = first.anchor
  physical : place.physicalPageNumber? = first.physicalPageNumber?
  geometry : (∀ g ∈ first.geometry?, g.Valid) → ∀ g ∈ place.geometry?, g.Valid
  offsets : ∀ axis ∈ place.axes, ∀ s e, first.start? axis = .some s → last.start? axis = .some e →
    place.start? axis = .some (s + start) ∧ place.stop? axis = .some (e + stop)

/-- **A chunk's place** has the anchor of its parts. Those of a note are of one block. -/
theorem spans_chunkPlace {first last : Part} {parts : List Part} (hquote : first.block.place.kind ≠ .pdfTextQuote)
    (hsame : ∀ p ∈ parts, p.block.place.kind = first.block.place.kind ∧ p.block.place.anchor = first.block.place.anchor)
    (hlast : last ∈ parts) (hnote : first.block.place.kind = .noteText → last.block = first.block) :
    ∃ place, chunkPlace first last parts = .ok place ∧
      Place.Spans first.block.place last.block.place first.piece.startOffset last.piece.endOffset place := by
  have hfragment : parts.all (fun p => p.block.locator.place.fragmentId? == first.block.locator.place.fragmentId?) = true := by
    refine List.all_eq_true.2 fun p hp => ?_
    obtain ⟨hkind, hanchor⟩ := hsame p hp
    unfold IndexableBlock.place at hkind hanchor
    revert hkind hanchor
    cases p.block.locator.place <;> cases first.block.locator.place <;>
      simp [Place.kind, Place.anchor, Place.fragmentId?]
  have hpage : parts.all (fun p => p.block.locator.place.pageNumber? == first.block.locator.place.pageNumber?) = true := by
    refine List.all_eq_true.2 fun p hp => ?_
    obtain ⟨hkind, hanchor⟩ := hsame p hp
    unfold IndexableBlock.place at hkind hanchor
    revert hkind hanchor
    cases p.block.locator.place <;> cases first.block.locator.place <;>
      simp [Place.kind, Place.anchor, Place.pageNumber?]
  obtain ⟨hkind, hanchor⟩ := hsame last hlast
  unfold chunkPlace
  simp only [hfragment, hpage, if_true]
  unfold IndexableBlock.place at *
  cases hfirst : first.block.locator.place with
  | webText s | epubText s =>
    rw [hfirst] at hkind hanchor
    cases hl : last.block.locator.place <;> rw [hl] at hkind hanchor <;> cases hkind
    refine ⟨_, rfl, rfl, rfl, rfl, by rintro - _ ⟨⟩, fun axis haxis a b ha hb => ?_⟩
    obtain rfl := List.mem_singleton.1 haxis
    obtain rfl := Option.some.inj ha
    obtain rfl := Option.some.inj hb
    exact ⟨rfl, rfl⟩
  | pdfText s =>
    rw [hfirst] at hkind hanchor
    cases hl : last.block.locator.place <;> rw [hl] at hkind hanchor <;> cases hkind
    refine ⟨_, rfl, rfl, rfl, rfl, fun hvalid g hg => ?_, fun axis haxis a b ha hb => ?_⟩
    · obtain ⟨g', hg', rfl⟩ := Option.mem_map.1 hg
      exact (hvalid g' hg').projectGeometry _ _
    · simp only [Place.start?, Place.stop?, Place.axes, List.mem_cons, List.not_mem_nil, or_false] at haxis ha hb ⊢
      rcases haxis with rfl | rfl
      · obtain rfl := Option.some.inj ha
        obtain rfl := Option.some.inj hb
        exact ⟨rfl, rfl⟩
      · dsimp only at ha hb ⊢
        simp [Place.plainTextStartOffset, ha, hb]
  | pdfTextQuote s => exact absurd (congrArg Place.kind hfirst) hquote
  | transcriptTimeText s =>
    rw [hfirst] at hkind hanchor
    cases hl : last.block.locator.place <;> rw [hl] at hkind hanchor <;> cases hkind
    refine ⟨_, rfl, rfl, ?_, rfl, by rintro - _ ⟨⟩, by rintro _ ⟨⟩⟩
    obtain ⟨-, hend⟩ := Anchor.segment.inj hanchor
    exact congrArg (Anchor.segment s.tStartMs) hend
  | noteText s =>
    rw [hnote (congrArg Place.kind hfirst), hfirst]
    refine ⟨_, rfl, rfl, rfl, rfl, by rintro - _ ⟨⟩, fun axis haxis a b ha hb => ?_⟩
    obtain rfl := List.mem_singleton.1 haxis
    obtain rfl := Option.some.inj ha
    obtain rfl := Option.some.inj hb
    exact ⟨rfl, rfl⟩

end Nexus.Indexing
