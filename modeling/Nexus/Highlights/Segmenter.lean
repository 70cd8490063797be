/-
Overlapping highlights as disjoint segments: `lib/highlights/segmenter.ts`.

The starts and the ends of the valid highlights are sorted by position, ends
before starts, and one sweep keeps the highlights that are open. It emits a
segment where the position moves on, and lengthens the last one when that has
the same ids.

An id is of any ordered type; the source's are strings compared by code units.
-/
import Mathlib.Data.List.Sort
import Mathlib.Data.Prod.Lex
import Mathlib.Data.Rat.Defs
import Mathlib.Algebra.Order.Ring.Unbundled.Rat
import Mathlib.Order.WithBot
import Nexus.Primitives

namespace Nexus.Highlights

/-! ## Numbers and highlights -/

/-- A number of the language: `nan`, or a value between the two infinities. -/
inductive Number
  | nan
  | value (x : WithBot (WithTop ℚ))
  deriving DecidableEq

def Number.ofInt (n : ℤ) : Number := .value (((n : ℚ) : WithTop ℚ) : WithBot (WithTop ℚ))

/-- `Number.isInteger`, with the integer. -/
def Number.isInteger : Number → Option ℤ
  | .value (WithBot.some (WithTop.some q)) => if q.den = 1 then .some q.num else .none
  | _ => .none

def isNonNegativeInteger (value : Number) : Option ℕ :=
  match value.isInteger with
  | .some n => if 0 ≤ n then .some n.toNat else .none
  | .none => .none

inductive HighlightColor
  | yellow
  | green
  | blue
  | pink
  | purple
  deriving DecidableEq, Repr

def HighlightColor.text : HighlightColor → Text
  | .yellow => "yellow".toList
  | .green => "green".toList
  | .blue => "blue".toList
  | .pink => "pink".toList
  | .purple => "purple".toList

def highlightColors : List HighlightColor := [.yellow, .green, .blue, .pink, .purple]

/-- The highlight as it comes in: any numbers, any color. -/
structure NormalizedHighlight (Id : Type) where
  id : Id
  start : Number
  stop : Number
  color : Text
  createdAtMs : Number

/-- A highlight that the segmenter has let through. -/
@[ext]
structure Highlight (Id : Type) where
  id : Id
  start : ℕ
  stop : ℕ
  color : HighlightColor
  createdAtMs : WithBot (WithTop ℚ)
  start_lt_stop : start < stop
  deriving DecidableEq

variable {Id : Type}

def Highlight.normalized (h : Highlight Id) : NormalizedHighlight Id :=
  ⟨h.id, .ofInt h.start, .ofInt h.stop, h.color.text, .value h.createdAtMs⟩

def isValidHighlight (h : NormalizedHighlight Id) (textLen : ℕ) : Option (Highlight Id) :=
  match isNonNegativeInteger h.start, h.stop.isInteger with
  | .some start, .some stop =>
    if hlt : start < stop.toNat then
      if stop ≤ textLen then
        match h.createdAtMs, highlightColors.find? (·.text == h.color) with
        | .value createdAtMs, .some color => .some ⟨h.id, start, stop.toNat, color, createdAtMs, hlt⟩
        | _, _ => .none
      else .none
    else .none
  | _, _ => .none

theorem Number.isInteger_eq_some_iff {x : Number} {n : ℤ} : x.isInteger = .some n ↔ x = .ofInt n := by
  constructor
  · intro h
    unfold isInteger at h
    split at h
    · rename_i q
      split at h
      · rename_i hq
        simp only [Option.some.injEq] at h
        rw [ofInt, ← h, Rat.coe_int_num_of_den_eq_one hq]
        rfl
      · cases h
    · cases h
  · rintro rfl
    show (if (n : ℚ).den = 1 then Option.some (n : ℚ).num else Option.none) = Option.some n
    simp

theorem Number.ofInt_injective : Function.Injective Number.ofInt := by
  intro n m h
  have := isInteger_eq_some_iff.2 h
  rw [isInteger_eq_some_iff.2 rfl] at this
  exact Option.some.inj this

theorem isNonNegativeInteger_eq_some_iff {x : Number} {n : ℕ} : isNonNegativeInteger x = .some n ↔ x = .ofInt n := by
  unfold isNonNegativeInteger
  cases hx : x.isInteger with
  | none =>
    simp only [reduceCtorEq, false_iff]
    rintro rfl
    rw [Number.isInteger_eq_some_iff.2 rfl] at hx
    cases hx
  | some m =>
    obtain rfl := Number.isInteger_eq_some_iff.1 hx
    dsimp only
    by_cases hm : 0 ≤ m
    · rw [if_pos hm, Option.some.injEq]
      refine ⟨fun h => by rw [← h, Int.toNat_of_nonneg hm], fun h => ?_⟩
      rw [Number.ofInt_injective h, Int.toNat_natCast]
    · rw [if_neg hm]
      refine ⟨fun h => (Option.some_ne_none _ h.symm).elim, fun h => ?_⟩
      have := Number.ofInt_injective h
      omega

theorem HighlightColor.find?_text {c : HighlightColor} {t : Text} :
    highlightColors.find? (·.text == t) = .some c ↔ c.text = t := by
  constructor
  · intro h
    simpa using List.find?_some h
  · rintro rfl
    cases c <;> decide

/-- A highlight is let through exactly when its numbers and its color are those of a valid one that ends in the text. -/
theorem isValidHighlight_eq_some_iff {h : NormalizedHighlight Id} {textLen : ℕ} {v : Highlight Id} :
    isValidHighlight h textLen = .some v ↔ v.normalized = h ∧ v.stop ≤ textLen := by
  constructor
  · intro hv
    unfold isValidHighlight at hv
    split at hv
    · rename_i start stop hstart hstop
      split at hv
      · rename_i hlt
        split at hv
        · rename_i hle
          split at hv
          · rename_i createdAtMs color hcreated hcolor
            simp only [Option.some.injEq] at hv
            obtain ⟨id, s, e, c, m⟩ := h
            dsimp only at hstart hstop hcreated hcolor hv
            obtain rfl := isNonNegativeInteger_eq_some_iff.1 hstart
            obtain rfl := Number.isInteger_eq_some_iff.1 hstop
            obtain rfl := HighlightColor.find?_text.1 hcolor
            subst hcreated hv
            have hstop' : ((stop.toNat : ℕ) : ℤ) = stop := by omega
            refine ⟨?_, by dsimp only; omega⟩
            simp only [Highlight.normalized, hstop']
          · cases hv
        · cases hv
      · cases hv
    · cases hv
  · rintro ⟨rfl, hle⟩
    have hstart : isNonNegativeInteger v.normalized.start = .some v.start := isNonNegativeInteger_eq_some_iff.2 rfl
    have hstop : v.normalized.stop.isInteger = .some (v.stop : ℤ) := Number.isInteger_eq_some_iff.2 rfl
    have hcolor : highlightColors.find? (·.text == v.normalized.color) = .some v.color :=
      HighlightColor.find?_text.2 rfl
    unfold isValidHighlight
    simp only [hstart, hstop, hcolor, Int.toNat_natCast, Int.ofNat_le, hle, if_true, v.start_lt_stop, dif_pos]
    rfl

/-! ## The sweep -/

/-- The highlights that the loop over the input keeps. -/
def validHighlights (textLen : ℕ) (hs : List (NormalizedHighlight Id)) : List (Highlight Id) :=
  hs.filterMap (isValidHighlight · textLen)

/-- The ids that it drops, in the order of the input. -/
def droppedIds (textLen : ℕ) (hs : List (NormalizedHighlight Id)) : List Id :=
  (hs.filter fun h => (isValidHighlight h textLen).isNone).map (·.id)

inductive EventType
  | start
  | stop
  deriving DecidableEq, Repr

structure Event (Id : Type) where
  pos : ℕ
  type : EventType
  highlight : Highlight Id
  deriving DecidableEq

structure Segment (Id : Type) where
  start : ℕ
  stop : ℕ
  activeIds : List Id
  topmostId : Id
  topmostColor : HighlightColor
  deriving DecidableEq

structure SegmentResult (Id : Type) where
  segments : List (Segment Id)
  droppedIds : List Id
  deriving DecidableEq

def startEvent (h : Highlight Id) : Event Id := ⟨h.start, .start, h⟩

def stopEvent (h : Highlight Id) : Event Id := ⟨h.stop, .stop, h⟩

/-- The events that the loop over the valid highlights makes. -/
def eventsOf (validHighlights : List (Highlight Id)) : List (Event Id) :=
  validHighlights.flatMap fun h => [startEvent h, stopEvent h]

theorem mem_eventsOf {vs : List (Highlight Id)} {e : Event Id} :
    e ∈ eventsOf vs ↔ e.highlight ∈ vs ∧ (e = startEvent e.highlight ∨ e = stopEvent e.highlight) := by
  simp only [eventsOf, List.mem_flatMap, List.mem_cons, List.not_mem_nil, or_false]
  constructor
  · rintro ⟨h, hh, rfl | rfl⟩
    · exact ⟨hh, .inl rfl⟩
    · exact ⟨hh, .inr rfl⟩
  · rintro ⟨hh, he⟩
    exact ⟨_, hh, he⟩

theorem nodup_eventsOf {vs : List (Highlight Id)} (hvs : vs.Nodup) : (eventsOf vs).Nodup := by
  refine List.nodup_flatMap.2 ⟨fun h _ => by simp [startEvent, stopEvent], hvs.imp fun {a b} hne => ?_⟩
  simp only [Function.onFun, List.Disjoint, List.mem_cons, List.not_mem_nil, or_false]
  rintro e (rfl | rfl) (he | he)
  all_goals simp only [startEvent, stopEvent, Event.mk.injEq, reduceCtorEq] at he
  all_goals tauto

variable [LinearOrder Id]

def compareHighlightsTopmost (a b : Highlight Id) : Ordering :=
  if a.createdAtMs ≠ b.createdAtMs then compare b.createdAtMs a.createdAtMs else compare a.id b.id

def compareEvents (a b : Event Id) : Ordering :=
  if a.pos ≠ b.pos then compare a.pos b.pos
  else if a.type ≠ b.type then if a.type = .stop then .lt else .gt
  else compareHighlightsTopmost a.highlight b.highlight

def sortTopmost (l : List (Highlight Id)) : List (Highlight Id) :=
  l.insertionSort fun a b => (compareHighlightsTopmost a b).isLE

def sortEvents (l : List (Event Id)) : List (Event Id) := l.insertionSort fun a b => (compareEvents a b).isLE

def buildSegment (start stop : ℕ) (activeMap : List (Highlight Id)) : Option (Segment Id) :=
  let activeHighlights := sortTopmost activeMap
  match activeHighlights with
  | [] => .none
  | topmost :: _ => .some ⟨start, stop, activeHighlights.map (·.id), topmost.id, topmost.color⟩

/-- `Map.set`: a key that is there keeps its place. -/
def mapSet (activeMap : List (Highlight Id)) (h : Highlight Id) : List (Highlight Id) :=
  if activeMap.any (·.id = h.id) then activeMap.map fun a => if a.id = h.id then h else a else activeMap ++ [h]

def mapDelete (activeMap : List (Highlight Id)) (id : Id) : List (Highlight Id) := activeMap.filter (·.id ≠ id)

def pushSegment (segments : List (Segment Id)) (segment : Segment Id) : List (Segment Id) :=
  match segments.getLast? with
  | .some last =>
    if last.activeIds = segment.activeIds then segments.dropLast ++ [{ last with stop := segment.stop }]
    else segments ++ [segment]
  | .none => segments ++ [segment]

/-- The variables of the loop; `prevPos` is `none` for the source's `-1`. -/
structure Sweep (Id : Type) where
  segments : List (Segment Id)
  activeMap : List (Highlight Id)
  prevPos : Option ℕ

/-- The emission at the head of the loop's body. -/
def Sweep.emit (s : Sweep Id) (pos : ℕ) : List (Segment Id) :=
  match s.prevPos with
  | .some prevPos =>
    if prevPos < pos ∧ s.activeMap ≠ [] then
      match buildSegment prevPos pos s.activeMap with
      | .some segment => pushSegment s.segments segment
      | .none => s.segments
    else s.segments
  | .none => s.segments

def Sweep.step (s : Sweep Id) (event : Event Id) : Sweep Id where
  segments := s.emit event.pos
  activeMap :=
    match event.type with
    | .start => mapSet s.activeMap event.highlight
    | .stop => mapDelete s.activeMap event.highlight.id
  prevPos := .some event.pos

def sweep (validHighlights : List (Highlight Id)) : List (Segment Id) :=
  ((sortEvents (eventsOf validHighlights)).foldl Sweep.step ⟨[], [], .none⟩).segments

def segmentHighlights (textLen : Number) (highlights : List (NormalizedHighlight Id)) : SegmentResult Id :=
  match isNonNegativeInteger textLen with
  | .none => ⟨[], highlights.map (·.id)⟩
  | .some textLen =>
    if validHighlights textLen highlights = [] then ⟨[], droppedIds textLen highlights⟩
    else ⟨sweep (validHighlights textLen highlights), droppedIds textLen highlights⟩

/-! ## The two orders -/

def topmostKey (h : Highlight Id) : (WithBot (WithTop ℚ))ᵒᵈ ×ₗ Id := toLex (OrderDual.toDual h.createdAtMs, h.id)

def eventKey (e : Event Id) : ℕ ×ₗ Bool ×ₗ (WithBot (WithTop ℚ))ᵒᵈ ×ₗ Id :=
  toLex (e.pos, toLex (decide (e.type = .start), topmostKey e.highlight))

theorem isLE_compare {α : Type} [LinearOrder α] {a b : α} : (compare a b).isLE = true ↔ a ≤ b := by
  rw [← Ordering.ne_gt_iff_isLE]
  exact compare_le_iff_le

theorem compareHighlightsTopmost_isLE {a b : Highlight Id} :
    (compareHighlightsTopmost a b).isLE = true ↔ topmostKey a ≤ topmostKey b := by
  unfold compareHighlightsTopmost topmostKey
  rw [Prod.Lex.toLex_le_toLex]
  by_cases h : a.createdAtMs = b.createdAtMs
  · simp [h, isLE_compare]
  · have h' : OrderDual.toDual a.createdAtMs ≠ OrderDual.toDual b.createdAtMs := h
    rw [if_pos h, isLE_compare, or_iff_left fun hab => h' hab.1, ← OrderDual.toDual_le_toDual, h'.le_iff_lt]

theorem compareEvents_isLE {a b : Event Id} : (compareEvents a b).isLE = true ↔ eventKey a ≤ eventKey b := by
  unfold compareEvents eventKey
  rw [Prod.Lex.toLex_le_toLex, Prod.Lex.toLex_le_toLex, ← compareHighlightsTopmost_isLE]
  by_cases hpos : a.pos = b.pos
  · by_cases htype : a.type = b.type
    · simp [hpos, htype]
    · cases ha : a.type <;> cases hb : b.type <;> simp_all
  · simp [hpos, isLE_compare, Ne.le_iff_lt hpos]

theorem pairwise_insertionSort_key {α κ : Type} [LinearOrder κ] {r : α → α → Bool} {key : α → κ}
    (hr : ∀ {a b}, r a b = true ↔ key a ≤ key b) (l : List α) :
    (l.insertionSort (r · ·)).Pairwise fun a b => key a ≤ key b := by
  have : Std.Total fun a b => r a b = true := ⟨fun a b => by rw [hr, hr]; exact le_total _ _⟩
  have : IsTrans α fun a b => r a b = true := ⟨fun a b c => by rw [hr, hr, hr]; exact le_trans⟩
  exact (List.pairwise_insertionSort _ l).imp fun h => hr.1 h

theorem sortTopmost_pairwise (l : List (Highlight Id)) :
    (sortTopmost l).Pairwise fun a b => topmostKey a ≤ topmostKey b :=
  pairwise_insertionSort_key compareHighlightsTopmost_isLE l

theorem sortEvents_pairwise (l : List (Event Id)) : (sortEvents l).Pairwise fun a b => eventKey a ≤ eventKey b :=
  pairwise_insertionSort_key compareEvents_isLE l

theorem sortTopmost_perm (l : List (Highlight Id)) : (sortTopmost l).Perm l := List.perm_insertionSort _ l

theorem sortEvents_perm (l : List (Event Id)) : (sortEvents l).Perm l := List.perm_insertionSort _ l

theorem sortTopmost_eq_nil_iff {l : List (Highlight Id)} : sortTopmost l = [] ↔ l = [] := by
  rw [← List.length_eq_zero_iff, (sortTopmost_perm l).length_eq, List.length_eq_zero_iff]

omit [LinearOrder Id] in
theorem id_eq_of_topmostKey {a b : Highlight Id} (h : topmostKey a = topmostKey b) : a.id = b.id :=
  (Prod.ext_iff.1 (toLex.injective h)).2

theorem sortTopmost_eq_of_perm {l l' : List (Highlight Id)} (hids : (l.map (·.id)).Nodup) (h : l.Perm l') :
    sortTopmost l = sortTopmost l' := by
  refine List.Perm.eq_of_pairwise (fun a b ha hb hab hba => ?_) (sortTopmost_pairwise l) (sortTopmost_pairwise l')
    ((sortTopmost_perm l).trans (h.trans (sortTopmost_perm l').symm))
  exact List.inj_on_of_nodup_map hids ((sortTopmost_perm l).mem_iff.1 ha)
    (h.mem_iff.2 ((sortTopmost_perm l').mem_iff.1 hb)) (id_eq_of_topmostKey (le_antisymm hab hba))

end Nexus.Highlights
