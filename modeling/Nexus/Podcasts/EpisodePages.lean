/-
Pages of a podcast's episodes: `services/podcasts/episodes.py`.

The predicate of a page is written by hand, sort by sort, over the cursor's
values: a missing flag stands beside each nullable column, and a missing
duration travels as zero. On the values minted from an episode it is never
unknown, and it takes the episodes the sort puts strictly after that one
(`episodeKeysetPredicate_minted`), so pages lose and repeat nothing.

Dates, durations and ids are numbers. A cursor's text is the signed cursor's
matter, and what the page shows of an episode is not told.
-/
import Nexus.Base
import Nexus.Collections.Keyset

namespace Nexus.Podcasts.Episodes
open Sql Nexus.Collections

/-- What the listing's `episode_rows` selects of an episode. -/
structure EpisodeRow where
  mediaId : Uuid
  publishedAt : Option Int
  durationSeconds : Option Int
  deriving DecidableEq, Repr

/-- `CASE WHEN column IS NULL THEN 1 ELSE 0 END` -/
def missing (column : Option Int) : Int := if column.isNone then 1 else 0

def EpisodeRow.publishedMissing (row : EpisodeRow) : Int := missing row.publishedAt

def EpisodeRow.durationMissing (row : EpisodeRow) : Int := missing row.durationSeconds

inductive PodcastEpisodeSort
  | newest
  | oldest
  | durationAsc
  | durationDesc
  deriving DecidableEq, Repr

/-! ## The order -/

section Terms

def publishedMissingKey : Key EpisodeRow Int := ⟨fun row => .some row.publishedMissing, .asc⟩

def publishedKey (direction : Direction) : Key EpisodeRow Int := ⟨EpisodeRow.publishedAt, direction⟩

def durationMissingKey : Key EpisodeRow Int := ⟨fun row => .some row.durationMissing, .asc⟩

def durationKey (direction : Direction) : Key EpisodeRow Int := ⟨EpisodeRow.durationSeconds, direction⟩

def mediaIdKey (direction : Direction) : Key EpisodeRow Int := ⟨fun row => .some row.mediaId, direction⟩

end Terms

/-- The `ORDER BY` of `_episode_order`. -/
def episodeOrder : PodcastEpisodeSort → List (Key EpisodeRow Int)
  | .oldest => [publishedMissingKey, publishedKey .asc, mediaIdKey .asc]
  | .newest => [publishedMissingKey, publishedKey .desc, mediaIdKey .desc]
  | .durationAsc =>
    [durationMissingKey, durationKey .asc, publishedMissingKey, publishedKey .desc, mediaIdKey .desc]
  | .durationDesc =>
    [durationMissingKey, durationKey .desc, publishedMissingKey, publishedKey .desc, mediaIdKey .desc]

/-- The kinds of `_episode_order`. -/
def cursorKinds : PodcastEpisodeSort → List KeysetValueKind
  | .oldest | .newest => [.int, .dateTimeOrNull, .uuid]
  | .durationAsc | .durationDesc => [.int, .int, .int, .dateTimeOrNull, .uuid]

/-! ## The cursor -/

def episodeAfterValues (sort : PodcastEpisodeSort) (row : EpisodeRow) : List (KeysetValue Int) :=
  let published : List (KeysetValue Int) :=
    [⟨.int, .some row.publishedMissing⟩, ⟨.dateTimeOrNull, row.publishedAt⟩, ⟨.uuid, .some row.mediaId⟩]
  match sort with
  | .newest | .oldest => published
  | .durationAsc | .durationDesc =>
    ⟨.int, .some row.durationMissing⟩ :: ⟨.int, .some (row.durationSeconds.getD 0)⟩ :: published

/-- `value > :bound` in an ascending sort and `value < :bound` in a descending one. -/
def past (direction : Direction) (value bound : Option Int) : Truth :=
  match direction with
  | .asc => lt bound value
  | .desc => lt value bound

/-- The disjuncts of `newest` and `oldest`. -/
def publishedPredicate (direction : Direction) (afterMissing afterPublished afterMediaId : Option Int) (row : EpisodeRow) :
    Truth :=
  disjAll [
    past .asc (.some row.publishedMissing) afterMissing,
    conjAll [eq (.some row.publishedMissing) afterMissing, eq afterMissing (.some 0),
      past direction row.publishedAt afterPublished],
    conjAll [eq (.some row.publishedMissing) afterMissing, isNotDistinctFrom row.publishedAt afterPublished,
      past direction (.some row.mediaId) afterMediaId]]

/-- `CASE WHEN :after_duration_missing = 1 THEN NULL ELSE :after_duration END` -/
def afterDurationValue (afterDurationMissing afterDuration : Option Int) : Option Int :=
  if isTrue (eq afterDurationMissing (.some 1)) then .none else afterDuration

/-- The disjuncts of `duration_asc` and `duration_desc`. -/
def durationPredicate (direction : Direction)
    (afterDurationMissing afterDuration afterMissing afterPublished afterMediaId : Option Int) (row : EpisodeRow) : Truth :=
  let sameMissing := eq (.some row.durationMissing) afterDurationMissing
  let sameDuration := isNotDistinctFrom row.durationSeconds (afterDurationValue afterDurationMissing afterDuration)
  disjAll [
    past .asc (.some row.durationMissing) afterDurationMissing,
    conjAll [sameMissing, eq afterDurationMissing (.some 0), past direction row.durationSeconds afterDuration],
    conjAll [sameMissing, sameDuration, past .asc (.some row.publishedMissing) afterMissing],
    conjAll [sameMissing, sameDuration, eq (.some row.publishedMissing) afterMissing, eq afterMissing (.some 0),
      past .desc row.publishedAt afterPublished],
    conjAll [sameMissing, sameDuration, eq (.some row.publishedMissing) afterMissing,
      isNotDistinctFrom row.publishedAt afterPublished, past .desc (.some row.mediaId) afterMediaId]]

/-- `_episode_keyset_predicate`: unpacking a tuple of another length fails. -/
def episodeKeysetPredicate (sort : PodcastEpisodeSort) : Option (List (Option Int)) → Option (EpisodeRow → Truth)
  | .none => .some fun _ => .some true
  | .some after =>
    match sort, after with
    | .newest, [m, published, mediaId] => .some (publishedPredicate .desc m published mediaId)
    | .oldest, [m, published, mediaId] => .some (publishedPredicate .asc m published mediaId)
    | .durationAsc, [dm, duration, m, published, mediaId] =>
      .some (durationPredicate .asc dm duration m published mediaId)
    | .durationDesc, [dm, duration, m, published, mediaId] =>
      .some (durationPredicate .desc dm duration m published mediaId)
    | _, _ => .none

/-- What a cursor's values unpack to. -/
def cursorAfter (sort : PodcastEpisodeSort) : Option (List (KeysetValue Int)) → Option (Option (List (Option Int)))
  | .none => .some .none
  | .some cursor => (decodeAfter (cursorKinds sort) cursor).map .some

/-- The listing's page over the episodes the other conditions of the query
take, with the cursor of its last episode when more were fetched. -/
def episodePage (sort : PodcastEpisodeSort) (episodes : List EpisodeRow) (limit : Nat)
    (cursor : Option (List (KeysetValue Int))) : Option (List EpisodeRow × Option (List (KeysetValue Int))) := do
  let after ← cursorAfter sort cursor
  let keyset ← episodeKeysetPredicate sort after
  let selected := episodes.filter fun row => isTrue (keyset row)
  return pageOf (episodeAfterValues sort) limit (orderBy (episodeOrder sort) selected)

/-! ## The predicate is the order -/

@[simp] theorem conj_known {a b : Bool} : conj (.some a) (.some b) = .some (a && b) := by cases a <;> cases b <;> rfl

@[simp] theorem disj_known {a b : Bool} : disj (.some a) (.some b) = .some (a || b) := by cases a <;> cases b <;> rfl

@[simp] theorem conj_false_left (a : Truth) : conj (.some false) a = .some false := rfl

@[simp] theorem conj_false_right (a : Truth) : conj a (.some false) = .some false := by rcases a with _ | _ | _ <;> rfl

@[simp] theorem missing_some (value : Int) : missing (.some value) = 0 := rfl

@[simp] theorem missing_none : missing .none = 1 := rfl

theorem isNotDistinctFrom_comm (a b : Option Int) : isNotDistinctFrom a b = isNotDistinctFrom b a :=
  congrArg Option.some (decide_eq_decide.2 eq_comm)

theorem publishedPredicate_minted (direction : Direction) (bound row : EpisodeRow) :
    publishedPredicate direction (.some bound.publishedMissing) bound.publishedAt (.some bound.mediaId) row =
      .some (decide (Precedes [publishedMissingKey, publishedKey direction, mediaIdKey direction] bound row)) := by
  rw [publishedPredicate, isNotDistinctFrom_comm row.publishedAt]
  obtain ⟨boundId, boundPublished, _⟩ := bound
  obtain ⟨rowId, rowPublished, _⟩ := row
  -- Two dates compare, two nulls leave it to the ids, and of one date the flag decides.
  cases direction <;> cases boundPublished <;> cases rowPublished <;>
    simp [past, disjAll, conjAll, isNotDistinctFrom, EpisodeRow.publishedMissing, Precedes, publishedMissingKey,
      publishedKey, mediaIdKey, Key.Before]

theorem durationPredicate_minted (direction : Direction) (bound row : EpisodeRow) :
    durationPredicate direction (.some bound.durationMissing) (.some (bound.durationSeconds.getD 0))
        (.some bound.publishedMissing) bound.publishedAt (.some bound.mediaId) row =
      .some (decide (Precedes [durationMissingKey, durationKey direction, publishedMissingKey, publishedKey .desc,
        mediaIdKey .desc] bound row)) := by
  rw [durationPredicate, isNotDistinctFrom_comm row.publishedAt, isNotDistinctFrom_comm row.durationSeconds]
  obtain ⟨boundId, boundPublished, boundDuration⟩ := bound
  obtain ⟨rowId, rowPublished, rowDuration⟩ := row
  cases direction <;> cases boundDuration <;> cases rowDuration <;> cases boundPublished <;> cases rowPublished <;>
    simp [past, disjAll, conjAll, isNotDistinctFrom, EpisodeRow.publishedMissing, EpisodeRow.durationMissing,
      afterDurationValue, Precedes, publishedMissingKey, publishedKey, durationMissingKey, durationKey, mediaIdKey,
      Key.Before, Bool.and_or_distrib_left]

/-- On the values minted from an episode the predicate is known, and true of
what the sort puts strictly after it. -/
theorem episodeKeysetPredicate_minted (sort : PodcastEpisodeSort) (bound : EpisodeRow) :
    ∃ after keyset, cursorAfter sort (.some (episodeAfterValues sort bound)) = .some after ∧
      episodeKeysetPredicate sort after = .some keyset ∧
      ∀ row, keyset row = .some (decide (Precedes (episodeOrder sort) bound row)) := by
  cases sort with
  | newest => exact ⟨_, _, rfl, rfl, publishedPredicate_minted .desc bound⟩
  | oldest => exact ⟨_, _, rfl, rfl, publishedPredicate_minted .asc bound⟩
  | durationAsc => exact ⟨_, _, rfl, rfl, durationPredicate_minted .asc bound⟩
  | durationDesc => exact ⟨_, _, rfl, rfl, durationPredicate_minted .desc bound⟩

/-! ## Pages -/

theorem distinguished_of_nodup (sort : PodcastEpisodeSort) {episodes : List EpisodeRow}
    (h : (episodes.map EpisodeRow.mediaId).Nodup) : Distinguished (episodeOrder sort) episodes := by
  refine (List.pairwise_map.1 h).imp fun hne => ?_
  have hne' : ∀ {a b : EpisodeRow} {direction}, a.mediaId ≠ b.mediaId →
      (mediaIdKey direction).value a ≠ (mediaIdKey direction).value b := by
    intro a b direction hne heq
    exact hne (Int.ofNat.inj (Option.some.inj heq))
  cases sort with
  | newest => exact ⟨mediaIdKey .desc, by simp [episodeOrder], hne' hne⟩
  | oldest => exact ⟨mediaIdKey .asc, by simp [episodeOrder], hne' hne⟩
  | durationAsc | durationDesc => exact ⟨mediaIdKey .desc, by simp [episodeOrder], hne' hne⟩

theorem episodePage_first (sort : PodcastEpisodeSort) (episodes : List EpisodeRow) (limit : Nat) :
    episodePage sort episodes limit .none =
      .some (pageOf (episodeAfterValues sort) limit (orderBy (episodeOrder sort) episodes)) := by
  simp [episodePage, cursorAfter, episodeKeysetPredicate]

theorem episodePage_next {sort : PodcastEpisodeSort} {episodes : List EpisodeRow}
    (h : (episodes.map EpisodeRow.mediaId).Nodup) (limit : Nat) {before after : List EpisodeRow} {row : EpisodeRow}
    (hsplit : orderBy (episodeOrder sort) episodes = before ++ row :: after) :
    episodePage sort episodes limit (.some (episodeAfterValues sort row)) =
      .some (pageOf (episodeAfterValues sort) limit after) := by
  obtain ⟨values, keyset, hvalues, hkeyset, hknown⟩ := episodeKeysetPredicate_minted sort row
  have hdistinct := distinguished_of_nodup sort h
  have hfilter : (episodes.filter fun r => isTrue (keyset r)) =
      episodes.filter fun r => decide (Precedes (episodeOrder sort) row r) :=
    List.filter_congr fun r _ => by rw [hknown, isTrue_some]
  unfold episodePage
  simp only [hvalues, hkeyset, Option.bind_eq_bind, Option.bind_some, hfilter]
  rw [hdistinct.orderBy_filter, hsplit, filter_precedes (hsplit ▸ hdistinct.precedes_orderBy)]
  rfl

/-- **Episode pages are lossless.** In each sort the predicate minted from an
episode is known on every episode, and true of exactly those the sort puts
strictly after it. So pages of any size give every episode of the list once and
in order. -/
theorem episode_pages_lossless (sort : PodcastEpisodeSort) :
    (∀ bound, ∃ after keyset, cursorAfter sort (.some (episodeAfterValues sort bound)) = .some after ∧
      episodeKeysetPredicate sort after = .some keyset ∧
      ∀ row, keyset row = .some (decide (Precedes (episodeOrder sort) bound row))) ∧
    ∀ episodes : List EpisodeRow, (episodes.map EpisodeRow.mediaId).Nodup → ∀ limit fuel, 1 ≤ limit →
      episodes.length < fuel → ∃ l, pages (episodePage sort episodes limit) fuel .none = .some l ∧
        l.flatten = orderBy (episodeOrder sort) episodes ∧ l.flatten.Perm episodes ∧
        l.flatten.Pairwise (Precedes (episodeOrder sort)) := by
  refine ⟨episodeKeysetPredicate_minted sort, fun episodes hnodup limit fuel hlimit hfuel => ?_⟩
  have hlength : (orderBy (episodeOrder sort) episodes).length < fuel := by
    rwa [(perm_orderBy (episodeOrder sort) episodes).length_eq]
  obtain ⟨l, hpages, hflat⟩ := pages_flatten hlimit (episodePage_first sort episodes limit)
    (fun before row after hsplit => episodePage_next hnodup limit hsplit) hlength
  refine ⟨l, hpages, hflat, ?_, ?_⟩
  · rw [hflat]
    exact perm_orderBy _ episodes
  · rw [hflat]
    exact (distinguished_of_nodup sort hnodup).precedes_orderBy

/-- Timed and untimed, dated and undated. -/
def mixedEpisodes : List EpisodeRow :=
  [⟨1, .some 30, .some 0⟩, ⟨2, .none, .some 0⟩, ⟨3, .some 10, .none⟩, ⟨4, .none, .none⟩, ⟨5, .some 30, .some 900⟩]

theorem episode_pages_lossless_mixed :
    ∃ l, pages (episodePage .durationAsc mixedEpisodes 2) 6 .none = .some l ∧
      l.flatten = orderBy (episodeOrder .durationAsc) mixedEpisodes ∧ l.flatten.Perm mixedEpisodes ∧
      l.flatten.Pairwise (Precedes (episodeOrder .durationAsc)) :=
  (episode_pages_lossless .durationAsc).2 mixedEpisodes (by decide) 2 6 (by decide) (by decide)

-- A zero duration is not a missing one: the border runs between episodes 2 and 3.
example : (orderBy (episodeOrder .durationAsc) mixedEpisodes).map EpisodeRow.mediaId = [1, 2, 5, 3, 4] := by
  decide +kernel

end Nexus.Podcasts.Episodes
