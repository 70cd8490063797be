/-
The sessions of `consumption/_activity_stats.py`: `sessionized_spans_sql`,
`session_rows` and the pages read from it.

A window function over a partition is a function of the relation and a row: the
rows before it by `(occurred_at, id)`, which the primary key makes total. So
nothing here depends on the order a relation comes in. Times are microseconds
since the epoch, texts come with the order of their collation. Titles, the
interpolated progress and the columns no statement groups by are left out.
-/
import Mathlib.Data.Prod.Lex
import Mathlib.Algebra.Ring.Int.Defs
import Nexus.Base
import Nexus.Lib.GroupBy
import Nexus.Lib.OrderBy
import Nexus.Lib.Table

namespace Nexus.Consumption.Activity
open Relational

/-- `ACTIVITY_SESSION_GAP_MS`, in microseconds. -/
def sessionGap : Int := 1800000 * 1000

variable {T : Type}

/-- A row of `consumption_activity_spans`; the request schema refuses an empty
duration, and nothing else writes the table. -/
structure ActivitySpan (T : Type) where
  id : Uuid
  userId : Uuid
  mediaId : Uuid
  modality : T
  deviceId : T
  occurredAt : Int
  durationMs : Int
  wordStart : Option Int
  wordEnd : Option Int
  mediaPositionStartMs : Option Int
  mediaPositionEndMs : Option Int
  createdAt : Int
  positive : 0 < durationMs
  deriving DecidableEq

/-- `PARTITION BY media_id, modality, device_id` -/
abbrev Partition (T : Type) := Uuid × T × T

namespace ActivitySpan

/-- `occurred_at + duration_ms * interval '1 millisecond'` -/
def endedAt (s : ActivitySpan T) : Int := s.occurredAt + s.durationMs * 1000

def partition (s : ActivitySpan T) : Partition T := (s.mediaId, s.modality, s.deviceId)

/-- `ORDER BY occurred_at, id` -/
def rank (s : ActivitySpan T) : Int ×ₗ Uuid := toLex (s.occurredAt, s.id)

end ActivitySpan

/-! ## What a query selects -/

/-- What a statement reads of the other tables. -/
structure ActivityView (T : Type) where
  /-- `visible_media_ids_cte_sql` -/
  visible : Uuid → Bool
  /-- the media has a current credit of the handle -/
  credited : T → Uuid → Bool

structure ActivityQuery (T : Type) where
  start : Option Int
  stop : Int
  modality : Option T
  mediaId : Option Uuid
  contributorHandle : Option T
  deviceId : Option T

section Relations

variable [DecidableEq T]

namespace ActivityQuery

/-- `query.start or datetime(1970, 1, 1)` -/
def first (query : ActivityQuery T) : Int := query.start.getD 0

def filters (query : ActivityQuery T) (view : ActivityView T) (s : ActivitySpan T) : Bool :=
  query.modality.all (· == s.modality) && query.mediaId.all (· == s.mediaId) && query.deviceId.all (· == s.deviceId) &&
    query.contributorHandle.all fun handle => view.credited handle s.mediaId

end ActivityQuery

/-- The viewer's spans a query is about, whenever they were. -/
def history (spans : Table (ActivitySpan T) ActivitySpan.id) (view : ActivityView T) (viewerId : Uuid)
    (query : ActivityQuery T) (asOf : Int) : List (ActivitySpan T) :=
  spans.rows.filter fun s => view.visible s.mediaId && s.userId == viewerId && decide (s.createdAt ≤ asOf) &&
    query.filters view s

def contextSpans (spans : List (ActivitySpan T)) (contextStart contextEnd : Int) : List (ActivitySpan T) :=
  spans.filter fun s => decide (s.occurredAt < contextEnd) && decide (contextStart < s.endedAt)

/-! ## Islands -/

section Islands

variable (spans : List (ActivitySpan T))

/-- `max(ended_at) OVER (… ROWS BETWEEN UNBOUNDED PRECEDING AND 1 PRECEDING)` -/
def priorMaxEnd (s : ActivitySpan T) : Option Int :=
  ((spans.filter fun u => decide (u.partition = s.partition ∧ u.rank < s.rank)).map ActivitySpan.endedAt).max?

def startsIsland (s : ActivitySpan T) : Bool :=
  match priorMaxEnd spans s with
  | .none => true
  | .some priorMaxEnd => decide (priorMaxEnd + sessionGap ≤ s.occurredAt)

/-- `sum(starts_island) OVER (… ROWS UNBOUNDED PRECEDING)` -/
def island (s : ActivitySpan T) : Nat :=
  ((spans.filter fun u => decide (u.partition = s.partition ∧ u.rank ≤ s.rank)).filter (startsIsland spans)).length

/-- The rows `island_bounds` groups with a row. -/
def islandRows (s : ActivitySpan T) : List (ActivitySpan T) :=
  spans.filter fun u => decide (u.partition = s.partition ∧ island spans u = island spans s)

def islandStart (s : ActivitySpan T) : Option Int := ((islandRows spans s).map ActivitySpan.occurredAt).min?

def islandEnd (s : ActivitySpan T) : Option Int := ((islandRows spans s).map ActivitySpan.endedAt).max?

end Islands

/-- `round(n / d)` of a numeric that is not negative: halves go up. -/
def roundDiv (n d : Int) : Int := (2 * n + d) / (2 * d)

/-- `greatest(0, coalesce(upper - lower, 0))` -/
def forwardDelta (lower upper : Option Int) : Int :=
  max 0 ((upper.bind fun u => lower.map fun l => u - l).getD 0)

/-- A row of `sessionized_spans_sql`. -/
structure ClippedSpan (T : Type) where
  span : ActivitySpan T
  island : Nat
  clippedStart : Int
  clippedEnd : Int
  clippedWordDelta : Int
  clippedMediaDelta : Int
  continuesBeforeRange : Bool
  continuesAfterRange : Bool

/-- `WHERE occurred_at < :end AND ended_at > :start` -/
def inRange (start stop : Int) (s : ActivitySpan T) : Bool :=
  decide (s.occurredAt < stop) && decide (start < s.endedAt)

/-- The columns of `clipped`. -/
def clip (spans : List (ActivitySpan T)) (start stop : Int) (s : ActivitySpan T) : ClippedSpan T :=
  let clippedStart := max s.occurredAt start
  let clippedEnd := min s.endedAt stop
  { span := s
    island := island spans s
    clippedStart
    clippedEnd
    clippedWordDelta := roundDiv (forwardDelta s.wordStart s.wordEnd * (clippedEnd - clippedStart)) (s.endedAt - s.occurredAt)
    clippedMediaDelta := roundDiv (forwardDelta s.mediaPositionStartMs s.mediaPositionEndMs * (clippedEnd - clippedStart))
      (s.endedAt - s.occurredAt)
    continuesBeforeRange := (islandStart spans s).any fun t => decide (t < start)
    continuesAfterRange := (islandEnd spans s).any fun t => decide (stop < t) }

def clipped (spans : List (ActivitySpan T)) (start stop : Int) : List (ClippedSpan T) :=
  (spans.filter (inRange start stop)).map (clip spans start stop)

/-! ## Sessions -/

/-- A row of `sessions`, with the spans it is made of. -/
structure ActivitySession (T : Type) where
  spans : List (ActivitySpan T)
  mediaId : Uuid
  modality : T
  deviceId : T
  sessionStart : Int
  sessionEnd : Int
  activeMs : Int
  forwardWordPosition : Int
  forwardMediaPositionMs : Int
  continuesBeforeRange : Bool
  continuesAfterRange : Bool

/-- The aggregates over a group with its first row. -/
def sessionOf (group : ClippedSpan T × List (ClippedSpan T)) : ActivitySession T where
  spans := group.2.map ClippedSpan.span
  mediaId := group.1.span.mediaId
  modality := group.1.span.modality
  deviceId := group.1.span.deviceId
  sessionStart := (group.2.map ClippedSpan.clippedStart).foldl min group.1.clippedStart
  sessionEnd := (group.2.map ClippedSpan.clippedEnd).foldl max group.1.clippedEnd
  activeMs := roundDiv (group.2.map fun r => r.clippedEnd - r.clippedStart).sum 1000
  forwardWordPosition := (group.2.map ClippedSpan.clippedWordDelta).sum
  forwardMediaPositionMs := (group.2.map ClippedSpan.clippedMediaDelta).sum
  continuesBeforeRange := group.2.any ClippedSpan.continuesBeforeRange
  continuesAfterRange := group.2.any ClippedSpan.continuesAfterRange

/-- `GROUP BY media_id, modality, device_id, island` -/
def sessions (spans : List (ActivitySpan T)) (start stop : Int) : List (ActivitySession T) :=
  (Sql.groups (fun r : ClippedSpan T => (r.span.partition, r.island)) (clipped spans start stop)).map sessionOf

end Relations

section Pages

variable [LinearOrder T]

/-- `(session_start, media_id, modality, device_id)` -/
def ActivitySession.key (session : ActivitySession T) : Int ×ₗ Uuid ×ₗ T ×ₗ T :=
  toLex (session.sessionStart, toLex (session.mediaId, toLex (session.modality, session.deviceId)))

/-- A `limit` of the routes. -/
abbrev PageLimit := { limit : Nat // 1 ≤ limit ∧ limit ≤ 100 }

/-- `session_rows`, newest first; `after` is the key a cursor resolves to. -/
def sessionRows (spans : Table (ActivitySpan T) ActivitySpan.id) (view : ActivityView T) (viewerId : Uuid)
    (query : ActivityQuery T) (asOf : Int) (limit : Nat) (after : Option (Int ×ₗ Uuid ×ₗ T ×ₗ T)) :
    List (ActivitySession T) :=
  let context := contextSpans (history spans view viewerId query asOf) (query.first - sessionGap) (query.stop + sessionGap)
  let rows := (sessions context query.first query.stop).filter fun session => after.all fun key => decide (session.key < key)
  (Sql.orderBy [⟨fun session : ActivitySession T => .some session.key, .desc⟩] rows).take (limit + 1)

/-- `get_activity_sessions`: a page, and the key its cursor carries. -/
def activitySessionPage (spans : Table (ActivitySpan T) ActivitySpan.id) (view : ActivityView T) (viewerId : Uuid)
    (query : ActivityQuery T) (asOf : Int) (limit : PageLimit) (after : Option (Int ×ₗ Uuid ×ₗ T ×ₗ T)) :
    List (ActivitySession T) × Option (Int ×ₗ Uuid ×ₗ T ×ₗ T) :=
  let rows := sessionRows spans view viewerId query asOf limit after
  let page := rows.take limit
  (page, if limit < rows.length then page.getLast?.map ActivitySession.key else .none)

/-- What a client that follows the cursors fetches. -/
def fetchSessions (spans : Table (ActivitySpan T) ActivitySpan.id) (view : ActivityView T) (viewerId : Uuid)
    (query : ActivityQuery T) (asOf : Int) (limit : PageLimit) (after : Option (Int ×ₗ Uuid ×ₗ T ×ₗ T)) :
    Option (List (ActivitySession T) × Option (Int ×ₗ Uuid ×ₗ T ×ₗ T)) :=
  .some (activitySessionPage spans view viewerId query asOf limit after)

end Pages

/-! ## What a session is -/

/-- No span of the row's media, modality and device before it ends within the
gap: the running maximum of their ends is that far back. -/
def Breaks (spans : List (ActivitySpan T)) (z : ActivitySpan T) : Prop :=
  ∀ u ∈ spans, u.partition = z.partition → u.rank < z.rank → u.endedAt + sessionGap ≤ z.occurredAt

/-- Two spans of one media, modality and device with no break between them. -/
def Joined (spans : List (ActivitySpan T)) (a b : ActivitySpan T) : Prop :=
  a.partition = b.partition ∧
    ∀ z ∈ spans, z.partition = a.partition → Breaks spans z → (z.rank ≤ a.rank ↔ z.rank ≤ b.rank)

section Islands

variable {spans : List (ActivitySpan T)} {a b z : ActivitySpan T}

theorem occurredAt_lt_endedAt (s : ActivitySpan T) : s.occurredAt < s.endedAt := by
  have h := s.positive
  unfold ActivitySpan.endedAt
  omega

theorem occurredAt_le_of_rank {a b : ActivitySpan T} (h : a.rank ≤ b.rank) : a.occurredAt ≤ b.occurredAt := by
  rcases Prod.Lex.toLex_le_toLex.1 h with hlt | ⟨heq, _⟩
  · exact le_of_lt hlt
  · exact le_of_eq heq

theorem Joined.symm (h : Joined spans a b) : Joined spans b a :=
  ⟨h.1.symm, fun z hz hzp hbreak => (h.2 z hz (hzp.trans h.1.symm) hbreak).symm⟩

theorem Joined.trans {c : ActivitySpan T} (hab : Joined spans a b) (hbc : Joined spans b c) : Joined spans a c :=
  ⟨hab.1.trans hbc.1, fun z hz hzp hbreak =>
    (hab.2 z hz hzp hbreak).trans (hbc.2 z hz (hzp.trans hab.1) hbreak)⟩

theorem Joined.refl (spans : List (ActivitySpan T)) (a : ActivitySpan T) : Joined spans a a := ⟨rfl, fun _ _ _ _ => Iff.rfl⟩

theorem joined_of_near {p : ActivitySpan T} (hp : p ∈ spans) (hpart : p.partition = z.partition) (hr : p.rank < z.rank)
    (hnear : z.occurredAt < p.endedAt + sessionGap) : Joined spans p z := by
  refine ⟨hpart, fun q _ hqp hbreak => ⟨fun h => le_trans h (le_of_lt hr), fun h => ?_⟩⟩
  by_contra hn
  have hgap := hbreak p hp hqp.symm (not_le.1 hn)
  have hle := occurredAt_le_of_rank h
  exact absurd (lt_of_lt_of_le hnear (le_trans hgap hle)) (lt_irrefl _)

theorem near_of_not_breaks (h : ¬ Breaks spans z) :
    ∃ p ∈ spans, p.partition = z.partition ∧ p.rank < z.rank ∧ z.occurredAt < p.endedAt + sessionGap ∧ Joined spans p z := by
  simp only [Breaks, not_forall, not_le] at h
  obtain ⟨p, hp, hpart, hr, hnear⟩ := h
  exact ⟨p, hp, hpart, hr, hnear, joined_of_near hp hpart hr hnear⟩

end Islands

/-! ## The context is enough -/

section Context

variable {spans : List (ActivitySpan T)} {start stop : Int} {a b x z : ActivitySpan T}

/-- The context of a range, half an hour on each side. -/
abbrev contextOf (spans : List (ActivitySpan T)) (start stop : Int) : List (ActivitySpan T) :=
  contextSpans spans (start - sessionGap) (stop + sessionGap)

theorem mem_context : a ∈ contextOf spans start stop ↔
    a ∈ spans ∧ a.occurredAt < stop + sessionGap ∧ start - sessionGap < a.endedAt := by
  simp [contextSpans, List.mem_filter]

theorem Breaks.context (h : Breaks spans z) : Breaks (contextOf spans start stop) z :=
  fun u hu => h u (mem_context.1 hu).1

theorem mem_context_of_break (ha : a ∈ contextOf spans start stop) (hb : b ∈ contextOf spans start stop) (hz : z ∈ spans)
    (hzp : z.partition = a.partition) (hbreak : Breaks spans z) (haz : a.rank < z.rank) (hzb : z.rank ≤ b.rank) :
    z ∈ contextOf spans start stop := by
  have hgap := hbreak a (mem_context.1 ha).1 hzp.symm haz
  have hle := occurredAt_le_of_rank hzb
  have hz' := occurredAt_lt_endedAt z
  obtain ⟨-, -, hae⟩ := mem_context.1 ha
  obtain ⟨-, hbo, -⟩ := mem_context.1 hb
  refine mem_context.2 ⟨hz, ?_, ?_⟩
  · omega
  · simp only [sessionGap] at *
    omega

theorem breaks_of_context (ha : a ∈ contextOf spans start stop) (hz : z ∈ contextOf spans start stop)
    (hzp : z.partition = a.partition) (hbreak : Breaks (contextOf spans start stop) z) (haz : a.rank < z.rank) :
    Breaks spans z := by
  intro u hu hup hur
  by_cases huc : u ∈ contextOf spans start stop
  · exact hbreak u huc hup hur
  · have hgap := hbreak a ha hzp.symm haz
    have hle := occurredAt_le_of_rank (le_of_lt hur)
    obtain ⟨-, -, hae⟩ := mem_context.1 ha
    obtain ⟨-, hzo, -⟩ := mem_context.1 hz
    have hout : ¬ (u.occurredAt < stop + sessionGap ∧ start - sessionGap < u.endedAt) := fun h => huc (mem_context.2 ⟨hu, h⟩)
    omega

theorem joined_context (ha : a ∈ contextOf spans start stop) (hb : b ∈ contextOf spans start stop) :
    Joined (contextOf spans start stop) a b ↔ Joined spans a b := by
  constructor
  · rintro ⟨hp, hj⟩
    refine ⟨hp, fun z hz hzp hbreak => ⟨fun h => ?_, fun h => ?_⟩⟩
    · by_contra hn
      have hzc := mem_context_of_break hb ha hz (hzp.trans hp) hbreak (not_le.1 hn) h
      exact hn ((hj z hzc hzp hbreak.context).1 h)
    · by_contra hn
      have hzc := mem_context_of_break ha hb hz hzp hbreak (not_le.1 hn) h
      exact hn ((hj z hzc hzp hbreak.context).2 h)
  · rintro ⟨hp, hj⟩
    refine ⟨hp, fun z hz hzp hbreak => ⟨fun h => ?_, fun h => ?_⟩⟩
    · by_contra hn
      have hb' := breaks_of_context hb hz (hzp.trans hp) hbreak (not_le.1 hn)
      exact hn ((hj z (mem_context.1 hz).1 hzp hb').1 h)
    · by_contra hn
      have hb' := breaks_of_context ha hz hzp hbreak (not_le.1 hn)
      exact hn ((hj z (mem_context.1 hz).1 hzp hb').2 h)

theorem exists_least {l : List (ActivitySpan T)} (h : a ∈ l) : ∃ z ∈ l, ∀ u ∈ l, z.rank ≤ u.rank := by
  induction l generalizing a with
  | nil => cases h
  | cons b l ih =>
    by_cases hl : l = []
    · subst hl
      exact ⟨b, by simp, by simp⟩
    · obtain ⟨c, hc⟩ := List.exists_mem_of_ne_nil l hl
      obtain ⟨z, hz, hleast⟩ := ih hc
      rcases le_total b.rank z.rank with hr | hr
      · exact ⟨b, by simp, List.forall_mem_cons.2 ⟨le_refl _, fun u hu => le_trans hr (hleast u hu)⟩⟩
      · exact ⟨z, by simp [hz], List.forall_mem_cons.2 ⟨hr, hleast⟩⟩

/-- The first span joined to `x` from an instant on, when it is no break, has
one before that instant within the gap. -/
theorem exists_before {t : Int} (hb : b ∈ spans) (hj : Joined spans b x) (hbt : t ≤ b.occurredAt)
    (hno : ∀ z ∈ spans, Joined spans z x → t ≤ z.occurredAt → z.rank ≤ b.rank → ¬ Breaks spans z) :
    ∃ z ∈ spans, ∃ p ∈ spans, Joined spans z x ∧ Joined spans p x ∧ t ≤ z.occurredAt ∧ p.occurredAt < t ∧
      z.rank ≤ b.rank ∧ z.occurredAt < p.endedAt + sessionGap := by
  classical
  obtain ⟨z, hz, hleast⟩ := exists_least (a := b) (l := spans.filter fun u => decide (Joined spans u x ∧ t ≤ u.occurredAt))
    (List.mem_filter.2 ⟨hb, decide_eq_true ⟨hj, hbt⟩⟩)
  obtain ⟨hz, hzj⟩ := List.mem_filter.1 hz
  obtain ⟨hzx, hzt⟩ := of_decide_eq_true hzj
  have hzb := hleast b (List.mem_filter.2 ⟨hb, decide_eq_true ⟨hj, hbt⟩⟩)
  obtain ⟨p, hp, hpart, hr, hnear, hpz⟩ := near_of_not_breaks (hno z hz hzx hzt hzb)
  refine ⟨z, hz, p, hp, hzx, hpz.trans hzx, hzt, ?_, hzb, hnear⟩
  by_contra hpt
  have hle := hleast p (List.mem_filter.2 ⟨hp, decide_eq_true ⟨hpz.trans hzx, not_lt.1 hpt⟩⟩)
  exact absurd (lt_of_lt_of_le hr hle) (lt_irrefl _)

theorem before_context (hx : x ∈ spans) (hin : inRange start stop x = true) :
    (∃ u ∈ contextOf spans start stop, Joined (contextOf spans start stop) u x ∧ u.occurredAt < start) ↔
      ∃ u ∈ spans, Joined spans u x ∧ u.occurredAt < start := by
  simp only [inRange, Bool.and_eq_true, decide_eq_true_eq] at hin
  have hxc : x ∈ contextOf spans start stop := mem_context.2 ⟨hx, by unfold sessionGap; omega, by unfold sessionGap; omega⟩
  constructor
  · rintro ⟨u, hu, hj, hlt⟩
    exact ⟨u, (mem_context.1 hu).1, (joined_context hu hxc).1 hj, hlt⟩
  · rintro ⟨u, hu, hj, hlt⟩
    by_cases hxs : x.occurredAt < start
    · exact ⟨x, hxc, .refl _ x, hxs⟩
    · obtain ⟨z, hz, p, hp, hzx, hpx, hzs, hps, hzr, hnear⟩ := exists_before hx (.refl spans x) (not_lt.1 hxs)
        fun z hz hzx hzs _ hbreak => by
          -- a break joined to `u` is not after it
          have hle := ((hj.trans hzx.symm).2 z hz (hzx.trans hj.symm).1 hbreak).2 (le_refl _)
          have hocc := occurredAt_le_of_rank hle
          omega
      have hzo := occurredAt_le_of_rank hzr
      have hpc : p ∈ contextOf spans start stop := mem_context.2 ⟨hp, by unfold sessionGap; omega, by omega⟩
      exact ⟨p, hpc, (joined_context hpc hxc).2 hpx, hps⟩

theorem after_context (hx : x ∈ spans) (hin : inRange start stop x = true) :
    (∃ u ∈ contextOf spans start stop, Joined (contextOf spans start stop) u x ∧ stop < u.endedAt) ↔
      ∃ u ∈ spans, Joined spans u x ∧ stop < u.endedAt := by
  simp only [inRange, Bool.and_eq_true, decide_eq_true_eq] at hin
  have hxc : x ∈ contextOf spans start stop := mem_context.2 ⟨hx, by unfold sessionGap; omega, by unfold sessionGap; omega⟩
  -- a span that begins early enough is in the context, or ends before `x` does
  have hearly : ∀ v ∈ spans, Joined spans v x → stop < v.endedAt → v.occurredAt < stop + sessionGap →
      ∃ u ∈ contextOf spans start stop, Joined (contextOf spans start stop) u x ∧ stop < u.endedAt := by
    intro v hv hj hlt hocc
    by_cases hvc : start - sessionGap < v.endedAt
    · have hvc : v ∈ contextOf spans start stop := mem_context.2 ⟨hv, hocc, hvc⟩
      exact ⟨v, hvc, (joined_context hvc hxc).2 hj, hlt⟩
    · refine ⟨x, hxc, .refl _ x, ?_⟩
      unfold sessionGap at hvc
      omega
  constructor
  · rintro ⟨u, hu, hj, hlt⟩
    exact ⟨u, (mem_context.1 hu).1, (joined_context hu hxc).1 hj, hlt⟩
  · rintro ⟨u, hu, hj, hlt⟩
    by_cases hus : u.occurredAt < stop
    · exact hearly u hu hj hlt (by unfold sessionGap; omega)
    · obtain ⟨z, hz, p, hp, hzx, hpx, hzs, hps, hzr, hnear⟩ := exists_before hu hj (not_lt.1 hus)
        fun z hz hzx hzs _ hbreak => by
          -- a break joined to `x` is not after it
          have hle := (hzx.symm.2 z hz hzx.1 hbreak).2 (le_refl _)
          have hocc := occurredAt_le_of_rank hle
          omega
      by_cases hpe : stop < p.endedAt
      · exact hearly p hp hpx hpe (by unfold sessionGap; omega)
      · have hze := occurredAt_lt_endedAt z
        exact hearly z hz hzx (by omega) (by omega)

theorem filter_context : (contextOf spans start stop).filter (inRange start stop) = spans.filter (inRange start stop) := by
  unfold contextOf contextSpans
  rw [List.filter_filter]
  refine List.filter_congr fun s _ => ?_
  rw [Bool.eq_iff_iff]
  simp only [inRange, Bool.and_eq_true, decide_eq_true_eq]
  unfold sessionGap
  omega

end Context

/-! ## Island numbers and sessions -/

section Numbers

variable [DecidableEq T] {spans : List (ActivitySpan T)} {start stop : Int} {a b x z : ActivitySpan T}

theorem startsIsland_iff : startsIsland spans z = true ↔ Breaks spans z := by
  have hmem : ∀ t, t ∈ ((spans.filter fun u => decide (u.partition = z.partition ∧ u.rank < z.rank)).map ActivitySpan.endedAt) ↔
      ∃ u ∈ spans, u.partition = z.partition ∧ u.rank < z.rank ∧ u.endedAt = t := by
    intro t
    simp [List.mem_map, List.mem_filter, and_assoc]
  unfold startsIsland
  cases hmax : priorMaxEnd spans z with
  | none =>
    rw [priorMaxEnd, List.max?_eq_none_iff] at hmax
    refine iff_of_true rfl fun u hu hp hr => ?_
    have hin := (hmem u.endedAt).2 ⟨u, hu, hp, hr, rfl⟩
    rw [hmax] at hin
    cases hin
  | some m =>
    obtain ⟨hm, hle⟩ := List.max?_eq_some_iff.1 hmax
    obtain ⟨u, hu, hp, hr, rfl⟩ := (hmem m).1 hm
    simp only [decide_eq_true_eq]
    constructor
    · intro h v hv hvp hvr
      have hv' := hle v.endedAt ((hmem _).2 ⟨v, hv, hvp, hvr, rfl⟩)
      exact le_trans (Int.add_le_add_right hv' _) h
    · exact fun h => h u hu hp hr

theorem island_eq_of_le (hp : a.partition = b.partition) (hr : a.rank ≤ b.rank) :
    island spans a = island spans b ↔ Joined spans a b := by
  have hmem : ∀ c z : ActivitySpan T,
      z ∈ (spans.filter fun u => decide (u.partition = c.partition ∧ u.rank ≤ c.rank)).filter (startsIsland spans) ↔
        z ∈ spans ∧ z.partition = c.partition ∧ z.rank ≤ c.rank ∧ Breaks spans z := by
    intro c z
    simp only [List.mem_filter, decide_eq_true_eq, startsIsland_iff, and_assoc]
  have hsub : ((spans.filter fun u => decide (u.partition = a.partition ∧ u.rank ≤ a.rank)).filter (startsIsland spans)).Sublist
      ((spans.filter fun u => decide (u.partition = b.partition ∧ u.rank ≤ b.rank)).filter (startsIsland spans)) := by
    refine List.Sublist.filter _ (List.monotone_filter_right _ fun u hu => ?_)
    rw [decide_eq_true_eq] at hu ⊢
    exact ⟨hu.1.trans hp, le_trans hu.2 hr⟩
  constructor
  · intro heq
    have hsame := hsub.eq_of_length heq
    refine ⟨hp, fun z hz hzp hbreak => ⟨fun h => le_trans h hr, fun h => ?_⟩⟩
    have hin := (hmem b z).2 ⟨hz, hzp.trans hp, h, hbreak⟩
    rw [← hsame] at hin
    exact ((hmem a z).1 hin).2.2.1
  · intro hj
    unfold island
    rw [List.filter_filter, List.filter_filter]
    refine congrArg List.length (List.filter_congr fun z hz => ?_)
    rw [Bool.eq_iff_iff]
    simp only [Bool.and_eq_true, decide_eq_true_eq, startsIsland_iff, hp]
    constructor
    · rintro ⟨hbreak, hzp, h⟩
      exact ⟨hbreak, hzp, le_trans h hr⟩
    · rintro ⟨hbreak, hzp, h⟩
      exact ⟨hbreak, hzp, (hj.2 z hz (hzp.trans hp.symm) hbreak).2 h⟩

/-- **Two rows have one island number exactly when no break is between them.** -/
theorem island_eq_iff (hp : a.partition = b.partition) : island spans a = island spans b ↔ Joined spans a b := by
  rcases le_total a.rank b.rank with hr | hr
  · exact island_eq_of_le hp hr
  · exact eq_comm.trans ((island_eq_of_le hp.symm hr).trans ⟨Joined.symm, Joined.symm⟩)

theorem mem_islandRows {u : ActivitySpan T} : u ∈ islandRows spans x ↔ u ∈ spans ∧ Joined spans u x := by
  unfold islandRows
  rw [List.mem_filter, decide_eq_true_eq]
  refine and_congr_right fun _ => ⟨fun h => (island_eq_iff h.1).1 h.2, fun h => ⟨h.1, (island_eq_iff h.1).2 h⟩⟩

theorem islandStart_any : ((islandStart spans x).any fun t => decide (t < start)) = true ↔
    ∃ u ∈ spans, Joined spans u x ∧ u.occurredAt < start := by
  unfold islandStart
  cases hmin : ((islandRows spans x).map ActivitySpan.occurredAt).min? with
  | none =>
    refine iff_of_false (by simp) ?_
    rintro ⟨u, hu, hj, -⟩
    rw [List.min?_eq_none_iff, List.map_eq_nil_iff] at hmin
    have hin := mem_islandRows.2 ⟨hu, hj⟩
    rw [hmin] at hin
    cases hin
  | some m =>
    obtain ⟨hm, hle⟩ := List.min?_eq_some_iff.1 hmin
    simp only [Option.any_some, decide_eq_true_eq]
    constructor
    · intro hlt
      obtain ⟨u, hu, rfl⟩ := List.mem_map.1 hm
      obtain ⟨hu, hj⟩ := mem_islandRows.1 hu
      exact ⟨u, hu, hj, hlt⟩
    · rintro ⟨u, hu, hj, hlt⟩
      exact lt_of_le_of_lt (hle _ (List.mem_map_of_mem (mem_islandRows.2 ⟨hu, hj⟩))) hlt

theorem islandEnd_any : ((islandEnd spans x).any fun t => decide (stop < t)) = true ↔
    ∃ u ∈ spans, Joined spans u x ∧ stop < u.endedAt := by
  unfold islandEnd
  cases hmax : ((islandRows spans x).map ActivitySpan.endedAt).max? with
  | none =>
    refine iff_of_false (by simp) ?_
    rintro ⟨u, hu, hj, -⟩
    rw [List.max?_eq_none_iff, List.map_eq_nil_iff] at hmax
    have hin := mem_islandRows.2 ⟨hu, hj⟩
    rw [hmax] at hin
    cases hin
  | some m =>
    obtain ⟨hm, hle⟩ := List.max?_eq_some_iff.1 hmax
    simp only [Option.any_some, decide_eq_true_eq]
    constructor
    · intro hlt
      obtain ⟨u, hu, rfl⟩ := List.mem_map.1 hm
      obtain ⟨hu, hj⟩ := mem_islandRows.1 hu
      exact ⟨u, hu, hj, hlt⟩
    · rintro ⟨u, hu, hj, hlt⟩
      exact lt_of_lt_of_le hlt (hle _ (List.mem_map_of_mem (mem_islandRows.2 ⟨hu, hj⟩)))

theorem clip_context (hx : x ∈ spans) (hin : inRange start stop x = true) :
    clip (contextOf spans start stop) start stop x =
      { clip spans start stop x with island := island (contextOf spans start stop) x } := by
  have hbefore : ((islandStart (contextOf spans start stop) x).any fun t => decide (t < start)) =
      (islandStart spans x).any fun t => decide (t < start) := by
    rw [Bool.eq_iff_iff, islandStart_any, islandStart_any]
    exact before_context hx hin
  have hafter : ((islandEnd (contextOf spans start stop) x).any fun t => decide (stop < t)) =
      (islandEnd spans x).any fun t => decide (stop < t) := by
    rw [Bool.eq_iff_iff, islandEnd_any, islandEnd_any]
    exact after_context hx hin
  unfold clip
  rw [hbefore, hafter]

theorem sessions_eq (spans : List (ActivitySpan T)) (start stop : Int) : sessions spans start stop =
    (Sql.groups (fun s : ActivitySpan T => (s.partition, island spans s)) (spans.filter (inRange start stop))).map fun g =>
      sessionOf (clip spans start stop g.1, g.2.map (clip spans start stop)) := by
  unfold sessions clipped
  rw [Sql.groups_map, List.map_map]
  rfl

theorem key_eq_iff : ((a.partition, island spans a) = (b.partition, island spans b)) ↔ Joined spans a b := by
  rw [Prod.mk.injEq]
  exact ⟨fun h => (island_eq_iff h.1).1 h.2, fun h => ⟨h.1, (island_eq_iff h.1).2 h⟩⟩

/-- **The context gives the sessions of the whole relation.** -/
theorem sessions_context (spans : List (ActivitySpan T)) (start stop : Int) :
    sessions (contextOf spans start stop) start stop = sessions spans start stop := by
  have hmem : ∀ {a : ActivitySpan T}, a ∈ spans.filter (inRange start stop) → a ∈ contextOf spans start stop := by
    intro a ha
    rw [← filter_context] at ha
    exact (List.mem_filter.1 ha).1
  have hgroups : Sql.groups (fun s : ActivitySpan T => (s.partition, island (contextOf spans start stop) s))
      (spans.filter (inRange start stop)) =
      Sql.groups (fun s : ActivitySpan T => (s.partition, island spans s)) (spans.filter (inRange start stop)) := by
    refine Sql.groups_congr fun a ha b hb => ?_
    rw [key_eq_iff, key_eq_iff]
    exact joined_context (hmem ha) (hmem hb)
  rw [sessions_eq, sessions_eq, filter_context, hgroups]
  refine List.map_congr_left fun g hg => ?_
  have hrow : ∀ a ∈ g.2, clip (contextOf spans start stop) start stop a =
      { clip spans start stop a with island := island (contextOf spans start stop) a } := by
    intro a ha
    obtain ⟨ha, hin⟩ := List.mem_filter.1 ((Sql.mem_group_iff hg).1 ha).1
    exact clip_context ha hin
  have hfirst := hrow g.1 (Sql.first_mem_group hg)
  -- no aggregate reads the number of an island
  have hcol : ∀ {β : Type} (f : ClippedSpan T → β), (∀ r n, f { r with island := n } = f r) →
      (g.2.map (clip (contextOf spans start stop) start stop)).map f = (g.2.map (clip spans start stop)).map f := by
    intro β f hf
    rw [List.map_map, List.map_map]
    refine List.map_congr_left fun a ha => ?_
    rw [Function.comp_apply, hrow a ha, hf]
    rfl
  have hany : ∀ f : ClippedSpan T → Bool, (∀ r n, f { r with island := n } = f r) →
      (g.2.map (clip (contextOf spans start stop) start stop)).any f = (g.2.map (clip spans start stop)).any f := by
    intro f hf
    have h := congrArg (fun l => l.any id) (hcol f hf)
    simpa only [List.any_map, Function.comp_def, id] using h
  unfold sessionOf
  simp only [hcol ClippedSpan.span (fun _ _ => rfl), hcol ClippedSpan.clippedStart (fun _ _ => rfl),
    hcol ClippedSpan.clippedEnd (fun _ _ => rfl), hcol (fun r => r.clippedEnd - r.clippedStart) (fun _ _ => rfl),
    hcol ClippedSpan.clippedWordDelta (fun _ _ => rfl), hcol ClippedSpan.clippedMediaDelta (fun _ _ => rfl),
    hany ClippedSpan.continuesBeforeRange (fun _ _ => rfl), hany ClippedSpan.continuesAfterRange (fun _ _ => rfl), hfirst]

theorem foldl_min_le : ∀ (l : List Int) (t : Int), l.foldl min t ≤ t ∧ ∀ u ∈ l, l.foldl min t ≤ u
  | [], t => ⟨le_refl t, by simp⟩
  | u :: l, t => by
    obtain ⟨hle, hall⟩ := foldl_min_le l (min t u)
    refine ⟨le_trans hle (min_le_left t u), List.forall_mem_cons.2 ⟨le_trans hle (min_le_right t u), hall⟩⟩

theorem lt_foldl_min {m : Int} : ∀ (l : List Int) (t : Int), m < t → (∀ u ∈ l, m < u) → m < l.foldl min t
  | [], _, h, _ => h
  | u :: l, t, h, hall => by
    rw [List.forall_mem_cons] at hall
    exact lt_foldl_min l (min t u) (lt_min h hall.1) hall.2

/-- Of two sessions of one media, modality and device, the one whose spans come
first starts first. -/
theorem start_lt {g g' : ActivitySpan T × List (ActivitySpan T)}
    (hg : g ∈ Sql.groups (fun s : ActivitySpan T => (s.partition, island spans s)) (spans.filter (inRange start stop)))
    (hg' : g' ∈ Sql.groups (fun s : ActivitySpan T => (s.partition, island spans s)) (spans.filter (inRange start stop)))
    (hp : g.1.partition = g'.1.partition) (hne : ¬ Joined spans g.1 g'.1) (hr : g.1.rank ≤ g'.1.rank) :
    (sessionOf (clip spans start stop g.1, g.2.map (clip spans start stop))).sessionStart <
      (sessionOf (clip spans start stop g'.1, g'.2.map (clip spans start stop))).sessionStart := by
  obtain ⟨hfirst, hkey⟩ := (Sql.mem_group_iff hg).1 (Sql.first_mem_group hg)
  obtain ⟨hfirst, hin⟩ := List.mem_filter.1 hfirst
  -- a break stands between the two groups
  obtain ⟨z, hz, hzp, hbreak, hlt, hle⟩ : ∃ z ∈ spans, z.partition = g.1.partition ∧ Breaks spans z ∧
      g.1.rank < z.rank ∧ z.rank ≤ g'.1.rank := by
    by_contra hnone
    refine hne ⟨hp, fun z hz hzp hbreak => ⟨fun h => le_trans h hr, fun h => ?_⟩⟩
    by_contra hn
    exact hnone ⟨z, hz, hzp, hbreak, not_le.1 hn, h⟩
  have hgap := hbreak g.1 hfirst hzp.symm hlt
  have hafter : ∀ y ∈ g'.2, z.occurredAt ≤ (clip spans start stop y).clippedStart := by
    intro y hy
    have hjoin : Joined spans y g'.1 := key_eq_iff.1 ((Sql.mem_group_iff hg').1 hy).2
    have hzy := (hjoin.2 z hz ((hzp.trans hp).trans hjoin.1.symm) hbreak).2 hle
    exact le_trans (occurredAt_le_of_rank hzy) (le_max_left _ _)
  have hbefore : (clip spans start stop g.1).clippedStart < z.occurredAt := by
    simp only [inRange, Bool.and_eq_true, decide_eq_true_eq] at hin
    have hocc := occurredAt_lt_endedAt g.1
    refine max_lt ?_ ?_ <;> (unfold sessionGap at hgap; omega)
  refine lt_of_le_of_lt (foldl_min_le _ _).1 (lt_foldl_min _ _ ?_ ?_)
  · exact lt_of_lt_of_le hbefore (hafter _ (Sql.first_mem_group hg'))
  · intro t ht
    rw [List.map_map] at ht
    obtain ⟨y, hy, rfl⟩ := List.mem_map.1 ht
    exact lt_of_lt_of_le hbefore (hafter y hy)

end Numbers

/-! ## Keys and pages -/

section Keys

variable [LinearOrder T] {spans : List (ActivitySpan T)} {start stop : Int}

theorem pairwise_keys (spans : List (ActivitySpan T)) (start stop : Int) :
    (sessions spans start stop).Pairwise fun s s' => s.key ≠ s'.key := by
  rw [sessions_eq]
  refine List.pairwise_map.2 (List.Pairwise.imp_of_mem ?_ (Sql.pairwise_groups _ _))
  intro g g' hg hg' hne hkey
  have hjoin : ¬ Joined spans g.1 g'.1 := fun h => hne (key_eq_iff.2 h)
  have hstart := congrArg (fun k => (ofLex k).1) hkey
  have hp : g.1.partition = g'.1.partition := by
    have hrest := congrArg (fun k => (ofLex (ofLex k).2)) hkey
    simp only [ActivitySession.key, ofLex_toLex, Prod.mk.injEq, EmbeddingLike.apply_eq_iff_eq] at hrest
    exact Prod.ext hrest.1 (Prod.ext hrest.2.1 hrest.2.2)
  rcases le_total g.1.rank g'.1.rank with hr | hr
  · exact absurd hstart (ne_of_lt (start_lt hg hg' hp hjoin hr))
  · exact absurd hstart.symm (ne_of_lt (start_lt hg' hg hp.symm (fun h => hjoin h.symm) hr))

/-- The sessions of a history clipped to a range: its spans in the range, those
of one session exactly when no gap parts them, and whether the session began
before the range or goes on after it. -/
structure SessionsOf (spans : List (ActivitySpan T)) (start stop : Int) (out : List (ActivitySession T)) : Prop where
  covers : ∀ x ∈ spans, inRange start stop x = true → ∃ s ∈ out, x ∈ s.spans
  clips : ∀ s ∈ out, ∀ x ∈ s.spans, x ∈ spans ∧ inRange start stop x = true
  joins : ∀ s ∈ out, ∀ s' ∈ out, ∀ x ∈ s.spans, ∀ y ∈ s'.spans, s = s' ↔ Joined spans x y
  before : ∀ s ∈ out, s.continuesBeforeRange = true ↔ ∃ u ∈ spans, ∃ x ∈ s.spans, Joined spans u x ∧ u.occurredAt < start
  after : ∀ s ∈ out, s.continuesAfterRange = true ↔ ∃ u ∈ spans, ∃ x ∈ s.spans, Joined spans u x ∧ stop < u.endedAt

theorem sessionsOf_sessions (spans : List (ActivitySpan T)) (start stop : Int) :
    SessionsOf spans start stop (sessions spans start stop) := by
  have hspans : ∀ g : ActivitySpan T × List (ActivitySpan T),
      (sessionOf (clip spans start stop g.1, g.2.map (clip spans start stop))).spans = g.2 := by
    intro g
    exact (List.map_map ..).trans (List.map_id _)
  rw [sessions_eq]
  refine ⟨fun x hx hin => ?_, fun s hs x hx => ?_, fun s hs s' hs' x hx y hy => ?_, fun s hs => ?_, fun s hs => ?_⟩
  · obtain ⟨g, hg, hxg⟩ := Sql.exists_group (fun s : ActivitySpan T => (s.partition, island spans s))
      (List.mem_filter.2 ⟨hx, hin⟩)
    exact ⟨_, List.mem_map_of_mem hg, by rw [hspans]; exact hxg⟩
  · obtain ⟨g, hg, rfl⟩ := List.mem_map.1 hs
    rw [hspans] at hx
    exact List.mem_filter.1 ((Sql.mem_group_iff hg).1 hx).1
  · obtain ⟨g, hg, rfl⟩ := List.mem_map.1 hs
    obtain ⟨g', hg', rfl⟩ := List.mem_map.1 hs'
    rw [hspans] at hx hy
    have hxk := ((Sql.mem_group_iff hg).1 hx).2
    have hyk := ((Sql.mem_group_iff hg').1 hy).2
    constructor
    · intro heq
      have hrows : g.2 = g'.2 := by rw [← hspans g, heq, hspans g']
      rw [hrows] at hx
      exact key_eq_iff.1 (((Sql.mem_group_iff hg').1 hx).2.trans hyk.symm)
    · intro hj
      rw [Sql.group_eq_of_key hg hg' (hxk.symm.trans ((key_eq_iff.2 hj).trans hyk))]
  · obtain ⟨g, hg, rfl⟩ := List.mem_map.1 hs
    rw [hspans]
    simp only [sessionOf, List.any_map, List.any_eq_true, Function.comp_apply, clip, islandStart_any]
    constructor
    · rintro ⟨x, hx, u, hu, hj, hlt⟩
      exact ⟨u, hu, x, hx, hj, hlt⟩
    · rintro ⟨u, hu, x, hx, hj, hlt⟩
      exact ⟨x, hx, u, hu, hj, hlt⟩
  · obtain ⟨g, hg, rfl⟩ := List.mem_map.1 hs
    rw [hspans]
    simp only [sessionOf, List.any_map, List.any_eq_true, Function.comp_apply, clip, islandEnd_any]
    constructor
    · rintro ⟨x, hx, u, hu, hj, hlt⟩
      exact ⟨u, hu, x, hx, hj, hlt⟩
    · rintro ⟨u, hu, x, hx, hj, hlt⟩
      exact ⟨x, hx, u, hu, hj, hlt⟩

/-- The `ORDER BY` of the pages. -/
def newestFirst : List (Sql.Key (ActivitySession T) (Int ×ₗ Uuid ×ₗ T ×ₗ T)) := [⟨fun session => .some session.key, .desc⟩]

theorem precedes_newestFirst {s s' : ActivitySession T} : Sql.Precedes newestFirst s s' ↔ s'.key < s.key := by
  simp [newestFirst, Sql.Precedes, Sql.Key.Before]

theorem distinguished_sessions (spans : List (ActivitySpan T)) (start stop : Int) :
    Sql.Distinguished newestFirst (sessions spans start stop) :=
  (pairwise_keys spans start stop).imp fun hne => ⟨_, List.mem_singleton_self _, fun h => hne (Option.some.inj h)⟩

/-- **The sessions of a query do not depend on the half hour of context.** They
are those of the viewer's whole history clipped to the range, no two have one
key, and the pages, read to the last, hold each once, the newest first. -/
theorem sessions_window_independent (spans : Table (ActivitySpan T) ActivitySpan.id) (view : ActivityView T) (viewerId : Uuid)
    (query : ActivityQuery T) (asOf : Int) :
    sessions (contextSpans (history spans view viewerId query asOf) (query.first - sessionGap) (query.stop + sessionGap))
        query.first query.stop = sessions (history spans view viewerId query asOf) query.first query.stop ∧
      SessionsOf (history spans view viewerId query asOf) query.first query.stop
        (sessions (history spans view viewerId query asOf) query.first query.stop) ∧
      (sessions (history spans view viewerId query asOf) query.first query.stop).Pairwise (fun s s' => s.key ≠ s'.key) ∧
      ∀ limit : PageLimit, ∃ l,
        Sql.pages (fetchSessions spans view viewerId query asOf limit)
          ((sessions (history spans view viewerId query asOf) query.first query.stop).length + 1) .none = .some l ∧
        l.flatten.Perm (sessions (history spans view viewerId query asOf) query.first query.stop) ∧
        l.flatten.Pairwise fun s s' => s'.key < s.key := by
  have hcontext : sessions (contextSpans (history spans view viewerId query asOf) (query.first - sessionGap)
      (query.stop + sessionGap)) query.first query.stop = sessions (history spans view viewerId query asOf) query.first query.stop :=
    sessions_context _ _ _
  have hdist := distinguished_sessions (history spans view viewerId query asOf) query.first query.stop
  refine ⟨hcontext, sessionsOf_sessions _ _ _, pairwise_keys _ _ _, fun limit => ?_⟩
  generalize hout : sessions (history spans view viewerId query asOf) query.first query.stop = out at *
  have hpage : ∀ after, activitySessionPage spans view viewerId query asOf limit after =
      Sql.pageOf ActivitySession.key limit (Sql.orderBy newestFirst (out.filter fun session =>
        after.all fun key => decide (session.key < key))) := by
    intro after
    simp only [activitySessionPage, sessionRows, hcontext]
    rfl
  have hfirst : fetchSessions spans view viewerId query asOf limit .none =
      .some (Sql.pageOf ActivitySession.key limit (Sql.orderBy newestFirst out)) := by
    rw [fetchSessions, hpage]
    simp
  have hnext : ∀ before row after, Sql.orderBy newestFirst out = before ++ row :: after →
      fetchSessions spans view viewerId query asOf limit (.some row.key) =
        .some (Sql.pageOf ActivitySession.key limit after) := by
    intro before row after hsplit
    have hsorted := hdist.precedes_orderBy
    rw [hsplit] at hsorted
    have hrest : (out.filter fun session => (Option.some row.key).all fun key => decide (session.key < key)) =
        out.filter fun session => decide (Sql.Precedes newestFirst row session) := by
      refine List.filter_congr fun session _ => ?_
      simp only [Option.all_some, precedes_newestFirst]
    rw [fetchSessions, hpage, hrest, hdist.orderBy_filter, hsplit, Sql.filter_precedes hsorted]
  have hfuel : (Sql.orderBy newestFirst out).length < out.length + 1 := by
    rw [(Sql.perm_orderBy newestFirst out).length_eq]
    exact Nat.lt_succ_self _
  obtain ⟨l, hl, hflat⟩ := Sql.pages_flatten limit.2.1 hfirst hnext hfuel
  refine ⟨l, hl, ?_, ?_⟩
  · rw [hflat]
    exact Sql.perm_orderBy newestFirst out
  · rw [hflat]
    exact hdist.precedes_orderBy.imp precedes_newestFirst.1

end Keys

end Nexus.Consumption.Activity
