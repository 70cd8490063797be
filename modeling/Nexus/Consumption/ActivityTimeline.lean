/-
The timeline and the totals of `consumption/_activity_stats.py`:
`visible_clipped_spans_sql`, `timeline_rows_sql`, `timeline_rows`,
`activity_totals_sql`, and the totals that `get_consumption_stats` reports.

Both clip the same spans to the range. The totals round once for a span (words,
media position) or once for a modality (active time); the timeline cuts each
span at the buckets' bounds, apportions the first two by largest remainders and
rounds each overlap's active time by itself.

Times are microseconds, durations rational numbers of milliseconds, and `round`
of what is not negative sends halves up, as the casts to `bigint` do. Labels,
offsets and the 400 bucket ceiling are left out.
-/
import Mathlib.Algebra.BigOperators.Ring.List
import Mathlib.Tactic.FieldSimp
import Nexus.Consumption.ActivitySessions
import Nexus.Lib.Apportion
import Nexus.Primitives

namespace Nexus.Consumption.Activity
open Apportion Relational

/-! ## Buckets -/

/-- The bounds of a bucket series over a range: the first bucket may begin
before the range, the last one ends with it. -/
structure Buckets (start stop : Int) where
  first : Int
  later : List Int
  sorted : (first :: later).Pairwise (· < ·)
  start_lt : start < stop
  first_le : first ≤ start
  lt_stop : ∀ b ∈ first :: later, b < stop

/-- `SELECT bucket_start, lead(bucket_start, 1, :end) OVER (ORDER BY bucket_start)` -/
def bounds (stop : Int) : Int → List Int → List (Int × Int)
  | b, [] => [(b, stop)]
  | b, b' :: later => (b, b') :: bounds stop b' later

def Buckets.list {start stop : Int} (buckets : Buckets start stop) : List (Int × Int) :=
  bounds stop buckets.first buckets.later

/-! ## The relations -/

variable {T : Type}

/-- A row of `visible_clipped_spans_sql`. -/
structure RangeSpan (T : Type) where
  span : ActivitySpan T
  clippedStart : Int
  clippedEnd : Int

def rangeSpan (start stop : Int) (s : ActivitySpan T) : RangeSpan T := ⟨s, max s.occurredAt start, min s.endedAt stop⟩

/-- `visible_clipped_spans_sql`, of the spans it may see. -/
def rangeSpans (history : List (ActivitySpan T)) (start stop : Int) : List (RangeSpan T) :=
  (history.filter (inRange start stop)).map (rangeSpan start stop)

/-- `extract(epoch FROM upper - lower)` -/
def epoch (lower upper : Int) : ℚ := ((upper - lower : Int) : ℚ) / 1000000

/-- A row of `intersections`. -/
structure Intersection (T : Type) where
  bucketStart : Int
  bucketEnd : Int
  range : RangeSpan T
  overlapStart : Int
  overlapEnd : Int

/-- The rows of `intersections` of one span. -/
def intersect (buckets : List (Int × Int)) (c : RangeSpan T) : List (Intersection T) :=
  (buckets.filter fun b => decide (c.clippedStart < b.2) && decide (b.1 < c.clippedEnd)).map fun b =>
    ⟨b.1, b.2, c, max c.clippedStart b.1, min c.clippedEnd b.2⟩

def intersections (buckets : List (Int × Int)) (clipped : List (RangeSpan T)) : List (Intersection T) :=
  clipped.flatMap (intersect buckets)

def wordDelta (s : ActivitySpan T) : Int := forwardDelta s.wordStart s.wordEnd

def mediaDelta (s : ActivitySpan T) : Int := forwardDelta s.mediaPositionStartMs s.mediaPositionEndMs

section rows
variable (delta : ActivitySpan T → Int)

def spanMs (s : ActivitySpan T) : ℚ := epoch s.occurredAt s.endedAt * 1000

def rangeMs (c : RangeSpan T) : ℚ := epoch c.clippedStart c.clippedEnd * 1000

/-- `word_exact` and `media_exact` -/
def exactShare (p : Intersection T) : ℚ :=
  delta p.range.span * epoch p.overlapStart p.overlapEnd * 1000 / spanMs p.range.span

/-- `word_range_total` and `media_range_total` -/
def rangeTotal (c : RangeSpan T) : ℤ := round (delta c.span * rangeMs c / spanMs c.span)

/-- `(extract(epoch FROM overlap_end - overlap_start) * 1000)::bigint` -/
def activeMs (p : Intersection T) : ℤ := round (epoch p.overlapStart p.overlapEnd * 1000)

/-- `ORDER BY (word_exact - floor(word_exact)) DESC, bucket_start, id` -/
def remainderRank (p : Intersection T) : ℚᵒᵈ ×ₗ Int ×ₗ Uuid :=
  toLex (OrderDual.toDual (exactShare delta p - ⌊exactShare delta p⌋), toLex (p.bucketStart, p.range.span.id))

/-- `word_floor + CASE WHEN word_rank <= word_remainder_count THEN 1 ELSE 0 END` over the partition by the span's id. -/
def allocated (rows : List (Intersection T)) (p : Intersection T) : ℤ :=
  apportion (remainderRank delta) (exactShare delta) (rangeTotal delta p.range)
    (rows.filter fun q => q.range.span.id = p.range.span.id) p

end rows

/-- A row of `timeline_rows_sql`. -/
structure TimelineFact (T : Type) where
  bucketStart : Int
  bucketEnd : Int
  modality : T
  activeMs : ℤ
  forwardWordPosition : ℤ
  forwardMediaPositionMs : ℤ

variable [DecidableEq T]

/-- `GROUP BY bucket_start, bucket_end, modality` -/
def timelineFacts (buckets : List (Int × Int)) (clipped : List (RangeSpan T)) : List (TimelineFact T) :=
  let rows := intersections buckets clipped
  (Sql.groups (fun p : Intersection T => (p.bucketStart, p.bucketEnd, p.range.span.modality)) rows).map fun g =>
    { bucketStart := g.1.bucketStart
      bucketEnd := g.1.bucketEnd
      modality := g.1.range.span.modality
      activeMs := (g.2.map activeMs).sum
      forwardWordPosition := (g.2.map (allocated wordDelta rows)).sum
      forwardMediaPositionMs := (g.2.map (allocated mediaDelta rows)).sum }

structure ActivityMetrics where
  activeMs : ℤ
  forwardWordPosition : ℤ
  forwardMediaPositionMs : ℤ
  deriving DecidableEq

/-- A row of `timeline_rows`; `modalities.get(modality, 0)` gives its reading, listening and viewing time. -/
structure TimelineRow (T : Type) where
  start : Int
  stop : Int
  activeMsOf : T → ℤ
  metrics : ActivityMetrics

/-- One row a bucket, zero where no fact is. -/
def timelineRows (buckets : List (Int × Int)) (clipped : List (RangeSpan T)) : List (TimelineRow T) :=
  let facts := timelineFacts buckets clipped
  buckets.map fun b =>
    let rows := facts.filter fun f => (f.bucketStart, f.bucketEnd) = b
    { start := b.1
      stop := b.2
      activeMsOf := fun modality => ((rows.find? (·.modality = modality)).map (·.activeMs)).getD 0
      metrics :=
        { activeMs := (rows.map (·.activeMs)).sum
          forwardWordPosition := (rows.map (·.forwardWordPosition)).sum
          forwardMediaPositionMs := (rows.map (·.forwardMediaPositionMs)).sum } }

/-- `sum(round(greatest(0, …) * extract(epoch FROM clipped) / extract(epoch FROM ended_at - occurred_at)))` -/
def roundedDelta (delta : ActivitySpan T → Int) (c : RangeSpan T) : ℤ :=
  round (delta c.span * epoch c.clippedStart c.clippedEnd / epoch c.span.occurredAt c.span.endedAt)

/-- `activity_totals_sql`: a row a modality. -/
def activityTotalsRows (clipped : List (RangeSpan T)) : List ActivityMetrics :=
  (Sql.groups (fun c : RangeSpan T => c.span.modality) clipped).map fun g =>
    { activeMs := round (g.2.map fun c => epoch c.clippedStart c.clippedEnd * 1000).sum
      forwardWordPosition := (g.2.map (roundedDelta wordDelta)).sum
      forwardMediaPositionMs := (g.2.map (roundedDelta mediaDelta)).sum }

/-- The sums over rows that `get_consumption_stats` reports. -/
def ActivityMetrics.total (rows : List ActivityMetrics) : ActivityMetrics where
  activeMs := (rows.map (·.activeMs)).sum
  forwardWordPosition := (rows.map (·.forwardWordPosition)).sum
  forwardMediaPositionMs := (rows.map (·.forwardMediaPositionMs)).sum

def activityTotals (clipped : List (RangeSpan T)) : ActivityMetrics := .total (activityTotalsRows clipped)

/-! ## Pieces of a span -/

section pieces
variable {T : Type} {start stop : Int}

/-- What two right-open intervals have in common. -/
def overlap (lower upper : Int) (b : Int × Int) : Int := max 0 (min upper b.2 - max lower b.1)

theorem sum_overlap (lower upper : Int) {b : Int} {later : List Int} (hsorted : (b :: later).Pairwise (· < ·))
    (hstop : ∀ a ∈ b :: later, a < stop) :
    ((bounds stop b later).map (overlap lower upper)).sum = overlap lower upper (b, stop) := by
  induction later generalizing b with
  | nil => simp [bounds]
  | cons b' later ih =>
    obtain ⟨hb, hsorted⟩ := List.pairwise_cons.1 hsorted
    have hlt := hb b' (by simp)
    have hlt' := hstop b' (by simp)
    rw [bounds, List.map_cons, List.sum_cons, ih hsorted fun a ha => hstop a (by simp [ha])]
    unfold overlap
    dsimp only
    omega

theorem bounds_lt {b : Int} {later : List Int} (hsorted : (b :: later).Pairwise (· < ·))
    (hstop : ∀ a ∈ b :: later, a < stop) : ∀ a ∈ bounds stop b later, a.1 < a.2 := by
  induction later generalizing b with
  | nil =>
    intro a ha
    obtain rfl := List.mem_singleton.1 ha
    exact hstop b (by simp)
  | cons b' later ih =>
    obtain ⟨hb, hsorted⟩ := List.pairwise_cons.1 hsorted
    intro a ha
    rcases List.mem_cons.1 ha with rfl | ha
    · exact hb b' (by simp)
    · exact ih hsorted (fun a ha => hstop a (by simp [ha])) a ha

theorem bounds_fst (b : Int) (later : List Int) : (bounds stop b later).map Prod.fst = b :: later := by
  induction later generalizing b with
  | nil => rfl
  | cons b' later ih => rw [bounds, List.map_cons, ih]

theorem Buckets.nodup (buckets : Buckets start stop) : (buckets.list.map Prod.fst).Nodup := by
  rw [Buckets.list, bounds_fst]
  exact buckets.sorted.imp fun h => h.ne

/-- The clipped span is not empty, and lies in the range. -/
structure InRange (start stop : Int) (c : RangeSpan T) : Prop where
  start_le : start ≤ c.clippedStart
  lt : c.clippedStart < c.clippedEnd
  le_stop : c.clippedEnd ≤ stop

theorem inRange_of_mem {history : List (ActivitySpan T)} {c : RangeSpan T} (hrange : start < stop)
    (hc : c ∈ rangeSpans history start stop) : InRange start stop c := by
  obtain ⟨s, hs, rfl⟩ := List.mem_map.1 hc
  have hin := (List.mem_filter.1 hs).2
  simp only [inRange, Bool.and_eq_true, decide_eq_true_eq] at hin
  have := occurredAt_lt_endedAt s
  exact ⟨le_max_right _ _, by simp only [rangeSpan]; omega, min_le_right _ _⟩

theorem sum_intersect (buckets : Buckets start stop) {c : RangeSpan T} (hc : InRange start stop c) :
    ((intersect buckets.list c).map fun p => p.overlapEnd - p.overlapStart).sum = c.clippedEnd - c.clippedStart := by
  have hlt := bounds_lt buckets.sorted buckets.lt_stop
  have hsum := sum_overlap c.clippedStart c.clippedEnd buckets.sorted buckets.lt_stop
  have hcover : overlap c.clippedStart c.clippedEnd (buckets.first, stop) = c.clippedEnd - c.clippedStart := by
    have h₁ := buckets.first_le
    have h₂ := hc.start_le
    have h₃ := hc.lt
    have h₄ := hc.le_stop
    unfold overlap
    dsimp only
    omega
  rw [hcover] at hsum
  rw [← hsum]
  unfold intersect Buckets.list
  generalize bounds stop buckets.first buckets.later = l at hlt ⊢
  clear hsum hcover
  induction l with
  | nil => rfl
  | cons b l ih =>
    have hb := hlt b (by simp)
    have hrest := ih fun a ha => hlt a (by simp [ha])
    rw [List.map_map] at hrest ⊢
    rw [List.map_cons, List.sum_cons, ← hrest, List.filter_cons]
    have h₃ := hc.lt
    split
    · rename_i hif
      simp only [Bool.and_eq_true, decide_eq_true_eq] at hif
      rw [List.map_cons, List.sum_cons]
      simp only [Function.comp_apply, overlap]
      omega
    · rename_i hif
      simp only [Bool.and_eq_true, decide_eq_true_eq] at hif
      have hzero : overlap c.clippedStart c.clippedEnd b = 0 := by
        unfold overlap
        omega
      rw [hzero, zero_add]

theorem epoch_eq (lower upper : Int) : epoch lower upper * 1000 = ((upper - lower : Int) : ℚ) / 1000 := by
  unfold epoch
  ring

theorem sum_intersect_ms (buckets : Buckets start stop) {c : RangeSpan T} (hc : InRange start stop c) :
    ((intersect buckets.list c).map fun p => epoch p.overlapStart p.overlapEnd * 1000).sum = rangeMs c := by
  have hcast : ∀ l : List (Intersection T), (l.map fun p => epoch p.overlapStart p.overlapEnd * 1000).sum =
      (((l.map fun p => p.overlapEnd - p.overlapStart).sum : Int) : ℚ) / 1000 := by
    intro l
    induction l with
    | nil => simp
    | cons p l ih =>
      rw [List.map_cons, List.sum_cons, ih, List.map_cons, List.sum_cons, epoch_eq]
      push_cast
      ring
  rw [hcast, sum_intersect buckets hc, rangeMs, epoch_eq]

end pieces

/-! ## The apportionment -/

section allocation
variable {T : Type} {start stop : Int} {delta : ActivitySpan T → Int} {clipped : List (RangeSpan T)} {c : RangeSpan T}

theorem spanMs_pos (s : ActivitySpan T) : 0 < spanMs s := by
  have h := occurredAt_lt_endedAt s
  have hpos : (0 : ℚ) < ((s.endedAt - s.occurredAt : Int) : ℚ) := by
    exact_mod_cast Int.sub_pos.2 h
  rw [spanMs, epoch_eq]
  positivity

theorem range_of_mem_intersect {buckets : List (Int × Int)} {p : Intersection T} (hp : p ∈ intersect buckets c) :
    p.range = c := by
  obtain ⟨b, -, rfl⟩ := List.mem_map.1 hp
  rfl

theorem sum_exactShare (buckets : Buckets start stop) (hc : InRange start stop c) :
    ((intersect buckets.list c).map (exactShare delta)).sum = delta c.span * rangeMs c / spanMs c.span := by
  have hshare : ∀ p ∈ intersect buckets.list c,
      exactShare delta p = delta c.span / spanMs c.span * (epoch p.overlapStart p.overlapEnd * 1000) := by
    intro p hp
    rw [exactShare, range_of_mem_intersect hp]
    ring
  rw [List.map_congr_left hshare, List.sum_map_mul_left, sum_intersect_ms buckets hc]
  ring

theorem roundedDelta_eq (c : RangeSpan T) : roundedDelta delta c = rangeTotal delta c := by
  unfold roundedDelta rangeTotal rangeMs spanMs
  congr 1
  rw [← mul_assoc, mul_div_mul_right _ _ (by norm_num : (1000 : ℚ) ≠ 0)]

theorem filter_intersections {buckets : List (Int × Int)} (hids : (clipped.map (·.span.id)).Nodup) (hc : c ∈ clipped) :
    ((intersections buckets clipped).filter fun q => q.range.span.id = c.span.id) = intersect buckets c := by
  unfold intersections
  induction clipped with
  | nil => simp at hc
  | cons d clipped ih =>
    obtain ⟨hd, hids⟩ := List.nodup_cons.1 hids
    rw [List.flatMap_cons, List.filter_append]
    rcases List.mem_cons.1 hc with rfl | hc
    · have hall : (intersect buckets c).filter (fun q => q.range.span.id = c.span.id) = intersect buckets c :=
        List.filter_eq_self.2 fun q hq => by simp [range_of_mem_intersect hq]
      have hnone : (clipped.flatMap (intersect buckets)).filter (fun q => q.range.span.id = c.span.id) = [] := by
        refine List.filter_eq_nil_iff.2 fun q hq => ?_
        obtain ⟨e, he, hq⟩ := List.mem_flatMap.1 hq
        have hne : e.span.id ≠ c.span.id := fun heq => hd (List.mem_map.2 ⟨e, he, heq⟩)
        simpa [range_of_mem_intersect hq] using hne
      rw [hall, hnone, List.append_nil]
    · have hne : d.span.id ≠ c.span.id := fun heq => hd (List.mem_map.2 ⟨c, hc, heq.symm⟩)
      have hnone : (intersect buckets d).filter (fun q => q.range.span.id = c.span.id) = [] :=
        List.filter_eq_nil_iff.2 fun q hq => by simpa [range_of_mem_intersect hq] using hne
      rw [hnone, List.nil_append, ih hids hc]

theorem nodup_remainderRank (buckets : Buckets start stop) (c : RangeSpan T) :
    ((intersect buckets.list c).map (remainderRank delta)).Nodup := by
  have hstarts : ((intersect buckets.list c).map (·.bucketStart)).Nodup := by
    unfold intersect
    rw [List.map_map]
    exact buckets.nodup.sublist (List.filter_sublist.map _)
  rw [List.nodup_map_iff_inj_on (List.Nodup.of_map _ hstarts)]
  intro p hp q hq heq
  have hkey := (Prod.ext_iff.1 (toLex.injective heq)).2
  exact List.inj_on_of_nodup_map hstarts hp hq (Prod.ext_iff.1 (toLex.injective hkey)).1

/-- The parts of one span: each its share rounded down or one more, none negative, and together the range's. -/
structure Allocates (delta : ActivitySpan T → Int) (buckets : List (Int × Int)) (clipped : List (RangeSpan T))
    (c : RangeSpan T) : Prop where
  each : ∀ p ∈ intersect buckets c,
    (allocated delta (intersections buckets clipped) p = ⌊exactShare delta p⌋ ∨
        allocated delta (intersections buckets clipped) p = ⌊exactShare delta p⌋ + 1) ∧
      0 ≤ allocated delta (intersections buckets clipped) p
  sum : ((intersect buckets c).map (allocated delta (intersections buckets clipped))).sum = roundedDelta delta c

theorem exactShare_nonneg {buckets : List (Int × Int)} (hdelta : 0 ≤ delta c.span) (hc : InRange start stop c)
    (hbuckets : ∀ b ∈ buckets, b.1 < b.2) {p : Intersection T} (hp : p ∈ intersect buckets c) :
    0 ≤ exactShare delta p := by
  obtain ⟨b, hb, rfl⟩ := List.mem_map.1 hp
  obtain ⟨hmem, hif⟩ := List.mem_filter.1 hb
  simp only [Bool.and_eq_true, decide_eq_true_eq] at hif
  have h₁ := hbuckets b hmem
  have h₂ := hc.lt
  have hle : (0 : ℚ) ≤ ((min c.clippedEnd b.2 - max c.clippedStart b.1 : Int) : ℚ) := by
    have : 0 ≤ min c.clippedEnd b.2 - max c.clippedStart b.1 := by omega
    exact_mod_cast this
  have hd : (0 : ℚ) ≤ (delta c.span : ℚ) := by exact_mod_cast hdelta
  have hs := spanMs_pos c.span
  simp only [exactShare, mul_assoc, epoch_eq]
  positivity

/-- **The timeline gives out each span's amount.** -/
theorem allocates_span (buckets : Buckets start stop) (hids : (clipped.map (·.span.id)).Nodup) (hc : c ∈ clipped)
    (hin : InRange start stop c) (hdelta : 0 ≤ delta c.span) : Allocates delta buckets.list clipped c := by
  have halloc : ∀ p ∈ intersect buckets.list c, allocated delta (intersections buckets.list clipped) p =
      apportion (remainderRank delta) (exactShare delta) (rangeTotal delta c) (intersect buckets.list c) p := by
    intro p hp
    unfold allocated
    rw [range_of_mem_intersect hp, filter_intersections hids hc]
  constructor
  · intro p hp
    have hfloor : 0 ≤ ⌊exactShare delta p⌋ :=
      Int.floor_nonneg.2 (exactShare_nonneg hdelta hin (bounds_lt buckets.sorted buckets.lt_stop) hp)
    have heq := apportion_eq (remainderRank delta) (exactShare delta) (rangeTotal delta c) (intersect buckets.list c) p
    rw [halloc p hp]
    exact ⟨heq, by omega⟩
  · rw [List.map_congr_left halloc, roundedDelta_eq]
    have htotal : rangeTotal delta c = round ((intersect buckets.list c).map (exactShare delta)).sum := by
      rw [sum_exactShare buckets hin]
      rfl
    exact sum_apportion (nodup_remainderRank buckets c) (htotal ▸ floors_le_round _ _)
      (htotal ▸ round_le_floors_add_length _ _)

end allocation

/-! ## The sums of the timeline -/

section sums
variable {start stop : Int} {clipped : List (RangeSpan T)}

theorem sum_timelineFacts (buckets : Buckets start stop) (clipped : List (RangeSpan T)) (column : TimelineFact T → ℤ) :
    (buckets.list.map fun b =>
        (((timelineFacts buckets.list clipped).filter fun f => (f.bucketStart, f.bucketEnd) = b).map column).sum).sum =
      ((timelineFacts buckets.list clipped).map column).sum := by
  refine Sql.sum_filter_keys (fun f : TimelineFact T => (f.bucketStart, f.bucketEnd)) column
    (List.Nodup.of_map _ buckets.nodup) fun f hf => ?_
  obtain ⟨g, hg, rfl⟩ := List.mem_map.1 hf
  have hfirst := Sql.mem_of_mem_firsts (Sql.mem_groups.1 hg).1
  obtain ⟨c, -, hp⟩ := List.mem_flatMap.1 hfirst
  obtain ⟨b, hb, heq⟩ := List.mem_map.1 hp
  dsimp only
  rw [← heq]
  exact (List.mem_filter.1 hb).1

theorem sum_flatMap {α β : Type} (f : α → List β) (w : β → ℤ) (l : List α) :
    ((l.flatMap f).map w).sum = (l.map fun a => ((f a).map w).sum).sum := by
  induction l with
  | nil => rfl
  | cons a l ih => rw [List.flatMap_cons, List.map_append, List.sum_append, ih, List.map_cons, List.sum_cons]

theorem total_timelineRows (buckets : Buckets start stop) (clipped : List (RangeSpan T)) :
    ActivityMetrics.total ((timelineRows buckets.list clipped).map (·.metrics)) =
      { activeMs := (clipped.map fun c => ((intersect buckets.list c).map activeMs).sum).sum
        forwardWordPosition := (clipped.map fun c =>
          ((intersect buckets.list c).map (allocated wordDelta (intersections buckets.list clipped))).sum).sum
        forwardMediaPositionMs := (clipped.map fun c =>
          ((intersect buckets.list c).map (allocated mediaDelta (intersections buckets.list clipped))).sum).sum } := by
  have hcolumn : ∀ (column : TimelineFact T → ℤ) (w : Intersection T → ℤ),
      (timelineFacts buckets.list clipped).map column =
        (Sql.groups (fun p : Intersection T => (p.bucketStart, p.bucketEnd, p.range.span.modality))
          (intersections buckets.list clipped)).map (fun g => (g.2.map w).sum) →
      (buckets.list.map fun b =>
          (((timelineFacts buckets.list clipped).filter fun f => (f.bucketStart, f.bucketEnd) = b).map column).sum).sum =
        (clipped.map fun c => ((intersect buckets.list c).map w).sum).sum := by
    intro column w h
    rw [sum_timelineFacts, h, Sql.sum_groups, intersections, sum_flatMap]
  have hactive := hcolumn (·.activeMs) activeMs (by rw [timelineFacts, List.map_map]; rfl)
  have hword := hcolumn (·.forwardWordPosition) (allocated wordDelta (intersections buckets.list clipped))
    (by rw [timelineFacts, List.map_map]; rfl)
  have hmedia := hcolumn (·.forwardMediaPositionMs) (allocated mediaDelta (intersections buckets.list clipped))
    (by rw [timelineFacts, List.map_map]; rfl)
  rw [← hactive, ← hword, ← hmedia]
  simp only [ActivityMetrics.total, timelineRows, List.map_map]
  rfl

/-- What rounding to a whole millisecond adds to an overlap. -/
def roundingError (p : Intersection T) : ℚ := activeMs p - epoch p.overlapStart p.overlapEnd * 1000

/-- By how many milliseconds the rounding errors of each modality's overlaps put its total off, all modalities together:
none for a modality whose errors add up to at most half a millisecond, and to more than its negative. -/
def activeSlip (buckets : List (Int × Int)) (clipped : List (RangeSpan T)) : ℤ :=
  ((Sql.groups (fun c : RangeSpan T => c.span.modality) clipped).map fun g =>
    ⌊1 / 2 - (g.2.map fun c => ((intersect buckets c).map roundingError).sum).sum⌋).sum

omit [DecidableEq T] in
theorem sum_activeMs (buckets : Buckets start stop) {c : RangeSpan T} (hc : InRange start stop c) :
    ((((intersect buckets.list c).map activeMs).sum : ℤ) : ℚ) =
      rangeMs c + ((intersect buckets.list c).map roundingError).sum := by
  rw [← sum_intersect_ms buckets hc]
  generalize intersect buckets.list c = l
  induction l with
  | nil => simp
  | cons p l ih =>
    simp only [List.map_cons, List.sum_cons, Int.cast_add] at ih ⊢
    rw [ih, roundingError]
    ring

omit [DecidableEq T] in
theorem round_rangeMs (buckets : Buckets start stop) {l : List (RangeSpan T)} (hl : ∀ c ∈ l, InRange start stop c) :
    round (l.map fun c => epoch c.clippedStart c.clippedEnd * 1000).sum =
      (l.map fun c => ((intersect buckets.list c).map activeMs).sum).sum +
        ⌊1 / 2 - (l.map fun c => ((intersect buckets.list c).map roundingError).sum).sum⌋ := by
  have hsum : (((l.map fun c => ((intersect buckets.list c).map activeMs).sum).sum : ℤ) : ℚ) =
      (l.map fun c => epoch c.clippedStart c.clippedEnd * 1000).sum +
        (l.map fun c => ((intersect buckets.list c).map roundingError).sum).sum := by
    induction l with
    | nil => simp
    | cons c l ih =>
      have hc := sum_activeMs buckets (hl c (by simp))
      have hrest := ih fun d hd => hl d (by simp [hd])
      simp only [List.map_cons, List.sum_cons, Int.cast_add] at hrest ⊢
      rw [hc, hrest, rangeMs]
      ring
  have hround : (l.map fun c => epoch c.clippedStart c.clippedEnd * 1000).sum + 1 / 2 =
      (((l.map fun c => ((intersect buckets.list c).map activeMs).sum).sum : ℤ) : ℚ) +
        (1 / 2 - (l.map fun c => ((intersect buckets.list c).map roundingError).sum).sum) := by
    rw [hsum]
    ring
  rw [round_eq, hround, Int.floor_intCast_add]

theorem activityTotals_activeMs (buckets : Buckets start stop) (hin : ∀ c ∈ clipped, InRange start stop c) :
    (activityTotals clipped).activeMs =
      (clipped.map fun c => ((intersect buckets.list c).map activeMs).sum).sum + activeSlip buckets.list clipped := by
  rw [← Sql.sum_groups (fun c : RangeSpan T => c.span.modality), activeSlip, ← List.sum_map_add]
  simp only [activityTotals, ActivityMetrics.total, activityTotalsRows, List.map_map]
  congr 1
  refine List.map_congr_left fun g hg => round_rangeMs buckets fun c hc => hin c ?_
  exact ((Sql.mem_group_iff hg).1 hc).1

theorem activityTotals_delta (delta : ActivitySpan T → Int) :
    ((Sql.groups (fun c : RangeSpan T => c.span.modality) clipped).map fun g => (g.2.map (roundedDelta delta)).sum).sum =
      (clipped.map (roundedDelta delta)).sum := Sql.sum_groups _ _ _

/-- The timeline keeps what the card reports: each span's amounts are given out to the buckets, and every column adds
up to the card's. -/
structure Conserves (buckets : List (Int × Int)) (clipped : List (RangeSpan T)) : Prop where
  words : ∀ c ∈ clipped, Allocates wordDelta buckets clipped c
  media : ∀ c ∈ clipped, Allocates mediaDelta buckets clipped c
  totals : ActivityMetrics.total ((timelineRows buckets clipped).map (·.metrics)) = activityTotals clipped

theorem conserves_iff_of_inRange (buckets : Buckets start stop) (hids : (clipped.map (·.span.id)).Nodup)
    (hin : ∀ c ∈ clipped, InRange start stop c) :
    Conserves buckets.list clipped ↔ activeSlip buckets.list clipped = 0 := by
  have hallocates : ∀ delta : ActivitySpan T → Int, (∀ s, 0 ≤ delta s) → ∀ c ∈ clipped,
      Allocates delta buckets.list clipped c :=
    fun delta hdelta c hc => allocates_span buckets hids hc (hin c hc) (hdelta c.span)
  have hword := hallocates wordDelta fun s => le_max_left _ _
  have hmedia := hallocates mediaDelta fun s => le_max_left _ _
  have htotal := activityTotals_activeMs buckets hin
  have hcolumn : ∀ delta : ActivitySpan T → Int, (∀ c ∈ clipped, Allocates delta buckets.list clipped c) →
      (clipped.map fun c =>
          ((intersect buckets.list c).map (allocated delta (intersections buckets.list clipped))).sum).sum =
        (clipped.map (roundedDelta delta)).sum :=
    fun delta h => congrArg List.sum (List.map_congr_left fun c hc => (h c hc).sum)
  constructor
  · intro h
    have hactive := congrArg (·.activeMs) h.totals
    rw [total_timelineRows] at hactive
    dsimp only at hactive
    omega
  · intro hslip
    refine ⟨hword, hmedia, ?_⟩
    rw [total_timelineRows, hcolumn wordDelta hword, hcolumn mediaDelta hmedia]
    have hactive : (activityTotals clipped).activeMs =
        (clipped.map fun c => ((intersect buckets.list c).map activeMs).sum).sum := by omega
    rw [← hactive, ← activityTotals_delta wordDelta, ← activityTotals_delta mediaDelta]
    simp only [activityTotals, ActivityMetrics.total, activityTotalsRows, List.map_map]
    rfl

/-- **When the timeline keeps what the card reports**: words and media position always, active time when the rounding
of the overlaps does not slip. -/
theorem timeline_conserves_iff (spans : Table (ActivitySpan T) ActivitySpan.id) (view : ActivityView T) (viewerId : Uuid)
    (query : ActivityQuery T) (asOf : Int) (buckets : Buckets query.first query.stop) :
    Conserves buckets.list (rangeSpans (history spans view viewerId query asOf) query.first query.stop) ↔
      activeSlip buckets.list (rangeSpans (history spans view viewerId query asOf) query.first query.stop) = 0 := by
  refine conserves_iff_of_inRange buckets ?_ fun c hc => inRange_of_mem buckets.start_lt hc
  have hmap : (rangeSpans (history spans view viewerId query asOf) query.first query.stop).map (·.span.id) =
      ((history spans view viewerId query asOf).filter (inRange query.first query.stop)).map ActivitySpan.id := by
    rw [rangeSpans, List.map_map]
    rfl
  rw [hmap]
  exact spans.nodup.sublist ((List.filter_sublist.trans List.filter_sublist).map _)

end sums

/-! ## A span over midnight -/

/-- Two seconds of reading, the half of a millisecond past a second before midnight. -/
def overMidnight : ActivitySpan Text where
  id := 1
  userId := 100
  mediaId := 7
  modality := "Reading".toList
  deviceId := "phone".toList
  occurredAt := 86400000000 - 1000500
  durationMs := 2000
  wordStart := .none
  wordEnd := .none
  mediaPositionStartMs := .none
  mediaPositionEndMs := .none
  createdAt := 0
  positive := by decide

def twoDays : ActivityQuery Text := ⟨.some 0, 172800000000, .none, .none, .none, .none⟩

def dayBuckets : Buckets twoDays.first twoDays.stop where
  first := 0
  later := [86400000000]
  sorted := by decide
  start_lt := by decide
  first_le := by decide
  lt_stop := by decide

/-- 1000.5 ms and 999.5 ms are 1001 ms and 1000 ms in the timeline, 2000 ms on the card. -/
theorem overMidnight_slips :
    ¬Conserves dayBuckets.list
      (rangeSpans (history ⟨[overMidnight], by decide⟩ ⟨fun _ => true, fun _ _ => true⟩ 100 twoDays 0) twoDays.first
        twoDays.stop) := by
  intro h
  have hactive := congrArg (·.activeMs) h.totals
  revert hactive
  decide +kernel

end Nexus.Consumption.Activity
