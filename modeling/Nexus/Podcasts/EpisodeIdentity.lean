/-
The identity of podcast episodes: `services/podcasts/episode_identity.py` and
`sync_subscription_ingest` of `services/podcasts/ingest.py`, for one podcast.

An ingest is a program of statements (`RowLocks.Prog`) that takes the aliases'
advisory locks and then the podcast's row, so that it resolves its items one
after the other under that lock. What it writes of an episode is its row and
its media's `provider_id`; the other columns, chapters, credits, the library
entry and the enrichment jobs are not told.

`normalize_url_for_display` of a URL that `validate_requested_url` accepts is a
parameter: nothing here depends on it.
-/
import Nexus.Base
import Nexus.Lib.RowLocks
import Mathlib.Data.Char
import Mathlib.Data.List.Lex
import Mathlib.Data.List.Sort

namespace Nexus.Podcasts
open RowLocks

/-! ## Aliases -/

/-- `EpisodeIdentityScheme`, in the order of its texts. -/
inductive EpisodeIdentityScheme
  | podcastIndex
  | rssEnclosure
  | rssGuid
  deriving DecidableEq, Repr

namespace EpisodeIdentityScheme

def value : EpisodeIdentityScheme → String
  | .podcastIndex => "PodcastIndex"
  | .rssEnclosure => "RssEnclosure"
  | .rssGuid => "RssGuid"

def order : EpisodeIdentityScheme → Nat
  | .podcastIndex => 0
  | .rssEnclosure => 1
  | .rssGuid => 2

/-- The schemes an episode has at most one alias of. -/
def Strong (s : EpisodeIdentityScheme) : Prop := s = .podcastIndex ∨ s = .rssGuid

end EpisodeIdentityScheme

structure EpisodeAlias where
  scheme : EpisodeIdentityScheme
  value : List Char
  deriving DecidableEq, Repr

/-- The order of the dataclass: by scheme, then by value. -/
def EpisodeAlias.le (a b : EpisodeAlias) : Bool :=
  decide (a.scheme.order < b.scheme.order) || a.scheme == b.scheme && decide (a.value ≤ b.value)

/-- `sorted(set(aliases))` -/
def sortedAliases (aliases : List EpisodeAlias) : List EpisodeAlias :=
  aliases.dedup.insertionSort fun a b => a.le b = true

/-- What an item of a feed says of its identity. -/
structure FeedEpisode where
  podcastIndexEpisodeRef : Option (List Char)
  guid : Option (List Char)
  audioUrl : Option (List Char)
  deriving DecidableEq, Repr

def nonblank (value : Option (List Char)) : Option (List Char) :=
  let normalized := pythonStrip (value.getD [])
  if normalized.isEmpty then .none else .some normalized

section

variable (canonicalUrl : List Char → Option (List Char))

def canonicalEnclosure (value : Option (List Char)) : Option (List Char) := (nonblank value).bind canonicalUrl

def aliasesFromEpisode (episode : FeedEpisode) : List EpisodeAlias :=
  sortedAliases
    (((nonblank episode.podcastIndexEpisodeRef).toList.map fun v => ⟨.podcastIndex, v⟩) ++
      ((nonblank episode.guid).toList.map fun v => ⟨.rssGuid, v⟩) ++
      ((canonicalEnclosure canonicalUrl episode.audioUrl).toList.map fun v => ⟨.rssEnclosure, v⟩))

end

def identityConflict (message : String) : ApiError := ⟨.podcastEpisodeIdentityConflict, message⟩

/-- One alias of an item of the batch: it is the item's, unless an earlier item
has it. -/
def claimAlias (aliasesByItem : List (List EpisodeAlias)) (itemIndex : Nat) (owners : List (EpisodeAlias × Nat))
    (a : EpisodeAlias) : Except ApiError (List (EpisodeAlias × Nat)) :=
  if a.scheme = .rssEnclosure then .ok owners
  else match owners.lookup a with
    | .none => .ok ((a, itemIndex) :: owners)
    | .some priorIndex =>
      let priorAliases := aliasesByItem.getD priorIndex []
      let sharedPodcastIndex := (aliasesByItem.getD itemIndex []).any fun candidate =>
        candidate.scheme == .podcastIndex && priorAliases.contains candidate
      if a.scheme = .rssGuid ∧ sharedPodcastIndex = true then .ok owners
      else .error (identityConflict ("distinct provider items claim the same " ++ a.scheme.value ++ " alias"))

def validateEpisodeAliasBatch (canonicalUrl : List Char → Option (List Char)) (episodes : List FeedEpisode) :
    Except ApiError (List (List EpisodeAlias)) := do
  let aliasesByItem := episodes.map (aliasesFromEpisode canonicalUrl)
  let _ ← aliasesByItem.zipIdx.foldlM (fun owners item => item.1.foldlM (claimAlias aliasesByItem item.2) owners) []
  return aliasesByItem

def requireOneStrongAliasPerScheme (aliases : List EpisodeAlias) : Except ApiError Unit :=
  [EpisodeIdentityScheme.podcastIndex, .rssGuid].forM fun scheme =>
    if 1 < ((aliases.filter fun a => a.scheme == scheme).map EpisodeAlias.value).dedup.length then
      .error (identityConflict ("episode has multiple " ++ scheme.value ++ " aliases"))
    else .ok ()

/-- The priority of `diagnostic_episode_alias`. -/
def EpisodeIdentityScheme.priority : EpisodeIdentityScheme → Nat
  | .podcastIndex => 0
  | .rssGuid => 1
  | .rssEnclosure => 2

def diagnosticEpisodeAlias : List EpisodeAlias → Except ApiError EpisodeAlias
  | [] => .error (identityConflict "episode has no stable identity alias")
  | a :: rest => .ok (rest.foldl (fun best b =>
      if b.scheme.priority < best.scheme.priority ∨ b.scheme = best.scheme ∧ b.value < best.value then b else best) a)

/-! ## Tables -/

/-- A `podcast_episodes` row of the podcast, and its media's `provider_id`. -/
structure EpisodeMedia where
  mediaId : Uuid
  providerId : List Char
  deriving DecidableEq, Repr

/-- A `podcast_episode_identities` row of the podcast. -/
structure EpisodeIdentity where
  scheme : EpisodeIdentityScheme
  value : List Char
  episodeMediaId : Uuid
  deriving DecidableEq, Repr

def EpisodeIdentity.episodeAlias (i : EpisodeIdentity) : EpisodeAlias := ⟨i.scheme, i.value⟩

/-- A batch that was ingested and the episodes of its items, told for the
proofs: no table keeps it. -/
structure IngestedBatch where
  episodes : List FeedEpisode
  mediaIds : List (Option Uuid)
  deriving DecidableEq, Repr

structure IngestTables where
  podcastExists : Bool
  episodes : List EpisodeMedia
  identities : List EpisodeIdentity
  ingested : List IngestedBatch
  deriving DecidableEq, Repr

namespace IngestTables

def aliasesOf (v : IngestTables) (mediaId : Uuid) : List EpisodeAlias :=
  (v.identities.filter fun i => i.episodeMediaId == mediaId).map EpisodeIdentity.episodeAlias

/-- The identities that have one of these aliases. -/
def boundTo (v : IngestTables) (aliases : List EpisodeAlias) : List EpisodeIdentity :=
  v.identities.filter fun i => aliases.contains i.episodeAlias

end IngestTables

inductive IngestWrite
  | insertEpisode (e : EpisodeMedia)
  | updateProviderId (mediaId : Uuid) (providerId : List Char)
  | insertIdentity (i : EpisodeIdentity)
  | ingested (b : IngestedBatch)
  deriving DecidableEq, Repr

def IngestWrite.apply : IngestWrite → IngestTables → IngestTables
  | .insertEpisode e, v => { v with episodes := v.episodes ++ [e] }
  | .updateProviderId mediaId providerId, v =>
    { v with episodes := v.episodes.map fun e => if e.mediaId = mediaId then { e with providerId } else e }
  | .insertIdentity i, v => { v with identities := v.identities ++ [i] }
  | .ingested b, v => { v with ingested := v.ingested ++ [b] }

/-- `uq_podcast_episodes_podcast_media` and `uq_podcast_episode_identities_alias` -/
def ingestStorage : Storage IngestTables IngestWrite where
  apply := IngestWrite.apply
  unique v := decide (v.episodes.map EpisodeMedia.mediaId).Nodup && decide (v.identities.map EpisodeIdentity.episodeAlias).Nodup
  deferred _ := true

/-- What an ingest locks: an alias's advisory lock, or the podcast's row. -/
inductive IngestRow
  | episodeAlias (a : EpisodeAlias)
  | podcast
  deriving DecidableEq, Repr

abbrev IngestTx := Prog IngestRow IngestTables Uuid IngestWrite ApiError

/-! ## The ingest -/

section

variable {α : Type}

def conflict (message : String) : IngestTx α := .fail (identityConflict message)

def podcastExists : IngestTx Bool := .query fun v _ => v.podcastExists

def lockEpisodeAliases (aliases : List EpisodeAlias) : IngestTx Unit := do
  if ← podcastExists then (sortedAliases aliases).forM fun a => .lockRow (.episodeAlias a)
  else conflict "episode Podcast identity is missing"

/-- The new enclosure of an episode known by its guid only. -/
def lacksPodcastIndexEquivalence (existing incoming : List EpisodeAlias) : Bool :=
  let existingGuid := existing.find? fun a => a.scheme == .rssGuid
  let incomingGuid := incoming.find? fun a => a.scheme == .rssGuid
  let hasNewEnclosure := incoming.any fun a => a.scheme == .rssEnclosure && !existing.contains a
  let podcastIndexProvesEpisode := incoming.any fun a => a.scheme == .podcastIndex && existing.contains a
  existingGuid.isSome && incomingGuid == existingGuid && hasNewEnclosure && !podcastIndexProvesEpisode

def resolveEpisodeAliases (aliases : List EpisodeAlias) : IngestTx (Option Uuid) :=
  if aliases.isEmpty then pure .none
  else do
    lockEpisodeAliases aliases
    let rows ← .query fun v _ => v.boundTo aliases
    match (rows.map EpisodeIdentity.episodeMediaId).dedup with
    | [] => pure .none
    | [mediaId] => do
      let existing ← .query fun v _ => v.aliasesOf mediaId
      .ofExcept (requireOneStrongAliasPerScheme (existing ++ aliases))
      if lacksPodcastIndexEquivalence existing aliases then
        conflict "duplicate RSS GUID with a new enclosure lacks Podcast Index equivalence"
      else pure (.some mediaId)
    | _ => conflict "candidate aliases resolve to multiple Podcast episodes"

/-- One turn of the loop of `attach_episode_aliases_in_current_transaction`. -/
def attachAlias (mediaId : Uuid) (a : EpisodeAlias) : IngestTx Unit := do
  let row ← .query fun v _ => v.identities.find? fun i => i.episodeAlias == a
  match row with
  | .some i => if i.episodeMediaId = mediaId then pure () else conflict "episode alias is already bound to another Media"
  | .none => .write fun _ _ => [.insertIdentity ⟨a.scheme, a.value, mediaId⟩]

def attachEpisodeAliases (mediaId : Uuid) (aliases : List EpisodeAlias) : IngestTx Unit :=
  if aliases.isEmpty then conflict "episode has no stable identity alias"
  else do
    lockEpisodeAliases aliases
    let existing ← .query fun v _ => v.aliasesOf mediaId
    .ofExcept (requireOneStrongAliasPerScheme (existing ++ aliases))
    aliases.forM (attachAlias mediaId)

/-- One item of `sync_subscription_ingest`: its episode, unless it has no
alias. -/
def ingestEpisode (aliases : List EpisodeAlias) : IngestTx (Option Uuid) :=
  if aliases.isEmpty then pure .none
  else do
    match ← resolveEpisodeAliases aliases with
    | .some mediaId => do
      attachEpisodeAliases mediaId aliases
      -- `diagnostic_episode_alias_for_media`
      let diagnosticAlias ← .ofExcept (diagnosticEpisodeAlias (← .query fun v _ => v.aliasesOf mediaId))
      .write fun _ _ => [.updateProviderId mediaId diagnosticAlias.value]
      pure (.some mediaId)
    | .none => do
      let diagnosticAlias ← .ofExcept (diagnosticEpisodeAlias aliases)
      let mediaId ← .returning (fun _ newId => [.insertEpisode ⟨newId, diagnosticAlias.value⟩]) fun _ newId => newId
      attachEpisodeAliases mediaId aliases
      pure (.some mediaId)

variable (canonicalUrl : List Char → Option (List Char))

/-- `lock_subscription_ingest_parent_in_current_transaction` -/
def lockSubscriptionIngestParent (selectedEpisodes : List FeedEpisode) : IngestTx (List (List EpisodeAlias)) := do
  let aliasesByEpisode ← .ofExcept (validateEpisodeAliasBatch canonicalUrl selectedEpisodes)
  lockEpisodeAliases aliasesByEpisode.flatten
  .lockRow .podcast
  if ← podcastExists then pure aliasesByEpisode else conflict "episode Podcast identity is missing"

/-- `sync_subscription_ingest`: the episode of each item. -/
def syncSubscriptionIngest (selectedEpisodes : List FeedEpisode) : IngestTx (List (Option Uuid)) := do
  let aliasesByEpisode ← lockSubscriptionIngestParent canonicalUrl selectedEpisodes
  aliasesByEpisode.mapM' ingestEpisode

def ingestBatch (selectedEpisodes : List FeedEpisode) : IngestTx Unit := do
  let mediaIds ← syncSubscriptionIngest canonicalUrl selectedEpisodes
  .write fun _ _ => [.ingested ⟨selectedEpisodes, mediaIds⟩]

end

end Nexus.Podcasts
