/-
Episodes keep their identity in every run of ingests, and ingesting a batch
again finds the episodes it had and binds nothing.
-/
import Nexus.Podcasts.EpisodeAliases

namespace Nexus.Podcasts
open RowLocks Transition ExceptFacts IngestTables

/-! ## A batch -/

section

variable {canonicalUrl : List Char → Option (List Char)}

/-- Well-formed tables, nothing written yet. -/
abbrev Starting (canonicalUrl : List Char → Option (List Char)) : Assn IngestRow IngestTables IngestWrite := fun _ s ws =>
  (ingestDiscipline canonicalUrl).inv s ∧ ws = []

theorem Starting.stable : Stable ingestStorage (ingestDiscipline canonicalUrl) (Starting canonicalUrl) :=
  Stable.inv.and Stable.writes

theorem quiet_lockEpisodeAliases {aliases : List EpisodeAlias} : Quiet (fun _ => True) (lockEpisodeAliases aliases) := by
  refine Quiet.bind (fun found _ => ?_) (Quiet.query (P := fun _ => True) fun _ _ => trivial)
  split
  · exact Quiet.forM fun _ _ => Quiet.lockRow trivial
  · trivial

theorem wp_lockSubscriptionIngestParent {episodes : List FeedEpisode} {H s} (hs : Starting canonicalUrl H s []) :
    IngestWp canonicalUrl (fun as => Holding fun v => Ingesting canonicalUrl (fun _ => True) v ∧
      validateEpisodeAliasBatch canonicalUrl episodes = .ok as) (lockSubscriptionIngestParent canonicalUrl episodes) H s [] := by
  unfold lockSubscriptionIngestParent
  refine Wp.quiet_bind Starting.stable (Quiet.ofExcept fun _ h => h) hs fun as H s _ hs hvalid => ?_
  refine Wp.quiet_bind Starting.stable quiet_lockEpisodeAliases hs fun _ H s _ hs _ => ?_
  refine Wp.seq (Wp.lockRow Starting.stable hs) fun _ H s ws h => ?_
  obtain ⟨⟨⟨-, hidentified⟩, rfl⟩, hheld⟩ := h
  have hholding : Holding (fun v => v.Identified canonicalUrl) H s [] := ⟨hheld, Keeps.refl s, hidentified⟩
  have hcheck : Takes canonicalUrl (fun v => v.Identified canonicalUrl)
      (podcastExists >>= fun found => if found = true then pure as else conflict "episode Podcast identity is missing")
      fun as v => Ingesting canonicalUrl (fun _ => True) v ∧ validateEpisodeAliasBatch canonicalUrl episodes = .ok as := by
    refine Takes.bind Takes.query fun found => ?_
    split
    next hfound =>
      refine Takes.pure fun v hv => ?_
      obtain ⟨hv, _, hread⟩ := hv
      exact ⟨⟨hread ▸ hfound, hv, trivial⟩, hvalid⟩
    next => exact Takes.conflict
  exact hcheck H s [] hholding

/-- **An ingest commits well.** -/
theorem ingestBatch_commits (episodes : List FeedEpisode) (H s) (hinv : (ingestDiscipline canonicalUrl).inv s) :
    IngestWp canonicalUrl (Commits ingestStorage (ingestDiscipline canonicalUrl)) (ingestBatch canonicalUrl episodes) H s [] := by
  unfold ingestBatch syncSubscriptionIngest
  refine Wp.seq
    (R := fun rs => Holding fun v => Ingesting canonicalUrl (fun _ => True) v ∧ v.Settled canonicalUrl ⟨episodes, rs⟩) ?_ ?_
  · refine Wp.seq (wp_lockSubscriptionIngestParent ⟨hinv, rfl⟩) fun as H s ws hs => ?_
    refine (takes_ingestEpisodes (F := fun _ => True) (fun _ _ _ h => h) H s ws (hs.mono fun v hv => hv.1)).mono
      fun rs _ _ _ h => h.mono fun v hv => ⟨hv.1, as, hs.2.2.2, hv.2⟩
  · intro rs H s ws hs
    have hwrite : Takes canonicalUrl (fun v => Ingesting canonicalUrl (fun _ => True) v ∧ v.Settled canonicalUrl ⟨episodes, rs⟩)
        (.write fun _ _ => [.ingested ⟨episodes, rs⟩]) fun _ v => v.Identified canonicalUrl := by
      refine Takes.write fun v hv _ => ?_
      have hk : Keeps v ((IngestWrite.ingested ⟨episodes, rs⟩).apply v) := ⟨rfl, List.Subset.refl _, List.Subset.refl _⟩
      refine ⟨hk, hv.1.identified.episode, hv.1.identified.strong, fun b hb => ?_⟩
      rcases List.mem_append.1 hb with hb | hb
      · exact ⟨hv.1.podcast, (hv.1.identified.settled b hb).2.keeps hk⟩
      · obtain rfl := List.mem_singleton.1 hb
        exact ⟨hv.1.podcast, hv.2.keeps hk⟩
    exact (hwrite H s ws hs).mono fun _ _ _ _ h hu _ => ⟨⟨hu, h.2.2⟩, h.2.1⟩

end

/-! ## The same batch again -/

section

variable {canonicalUrl : List Char → Option (List Char)} {v₀ v : IngestTables} {aliases : List EpisodeAlias} {m : Uuid}

/-- The same episodes and identities: a `provider_id` may have changed. -/
structure SameIdentities (v₀ v : IngestTables) : Prop where
  podcast : v.podcastExists = v₀.podcastExists
  identities : v.identities = v₀.identities
  mediaIds : v.mediaIds = v₀.mediaIds

theorem SameIdentities.aliasesOf (h : SameIdentities v₀ v) (m : Uuid) : v.aliasesOf m = v₀.aliasesOf m := by
  simp only [IngestTables.aliasesOf, h.identities]

theorem SameIdentities.unique (h : SameIdentities v₀ v) : ingestStorage.unique v = ingestStorage.unique v₀ := by
  have hids : v.episodes.map EpisodeMedia.mediaId = v₀.episodes.map EpisodeMedia.mediaId := h.mediaIds
  simp only [ingestStorage, hids, h.identities]

/-- Tables in which an item of these aliases has its episode. -/
structure Known (v₀ : IngestTables) (aliases : List EpisodeAlias) (m : Uuid) (v : IngestTables) : Prop where
  same : SameIdentities v₀ v
  podcast : v₀.podcastExists = true
  unique : ingestStorage.unique v₀ = true
  strong : OneStrong (v₀.aliasesOf m)
  nonempty : aliases ≠ []
  bound : ∀ a ∈ aliases, v₀.Bound a m

theorem Known.subset (h : Known v₀ aliases m v) : aliases ⊆ v₀.aliasesOf m := fun a ha => mem_aliasesOf.2 (h.bound a ha)

theorem Known.unique_now (h : Known v₀ aliases m v) : ingestStorage.unique v = true := h.same.unique.trans h.unique

theorem Known.requireOneStrong (h : Known v₀ aliases m v) :
    requireOneStrongAliasPerScheme (v₀.aliasesOf m ++ aliases) = .ok () := by
  have hsub : v₀.aliasesOf m ++ aliases ⊆ v₀.aliasesOf m := List.append_subset.2 ⟨List.Subset.refl _, h.subset⟩
  exact requireOneStrong_eq_ok.2 fun a ha b hb => h.strong a (hsub ha) b (hsub hb)

theorem Known.lockEpisodeAliases (h : Known v₀ aliases m v) (l : List EpisodeAlias) :
    Alone ingestStorage (fun _ v => Known v₀ aliases m v) (lockEpisodeAliases l) v := by
  refine Alone.bind (P := fun found v => Known v₀ aliases m v ∧ found = true) (fun found v hv => ?_)
    (Alone.query h.unique_now fun _ => ⟨h, h.same.podcast.trans h.podcast⟩)
  rw [if_pos hv.2]
  exact Alone.forM (fun _ _ _ hv => hv) hv.1

theorem Known.resolves (h : Known v₀ aliases m v) :
    ((v.boundTo aliases).map EpisodeIdentity.episodeMediaId).dedup = [m] := by
  have hall : ∀ k ∈ (v.boundTo aliases).map EpisodeIdentity.episodeMediaId, k = m := by
    intro k hk
    obtain ⟨i, hi, rfl⟩ := List.mem_map.1 hk
    rw [boundTo, h.same.identities, List.mem_filter, List.contains_iff_mem] at hi
    exact Bound.unique h.unique (a := i.episodeAlias) hi.1 (h.bound _ hi.2)
  have hsome : m ∈ ((v.boundTo aliases).map EpisodeIdentity.episodeMediaId).dedup := by
    obtain ⟨a, ha⟩ := List.exists_mem_of_ne_nil _ h.nonempty
    refine List.mem_dedup.2 (List.mem_map.2 ⟨⟨a.scheme, a.value, m⟩, ?_, rfl⟩)
    rw [boundTo, h.same.identities, List.mem_filter, List.contains_iff_mem]
    exact ⟨h.bound a ha, ha⟩
  have hlen : ((v.boundTo aliases).map EpisodeIdentity.episodeMediaId).dedup.length ≤ 1 :=
    dedup_length_le.2 fun a ha b hb => (hall a ha).trans (hall b hb).symm
  match hd : ((v.boundTo aliases).map EpisodeIdentity.episodeMediaId).dedup, hlen, hsome with
  | [k], _, hsome => rw [List.mem_singleton.1 hsome]

theorem Known.hasEquivalence (h : Known v₀ aliases m v) : lacksPodcastIndexEquivalence (v₀.aliasesOf m) aliases = false := by
  have hnone : (aliases.any fun a => a.scheme == .rssEnclosure && !(v₀.aliasesOf m).contains a) = false := by
    refine List.any_eq_false.2 fun a ha => ?_
    simp [h.subset ha]
  simp only [lacksPodcastIndexEquivalence, hnone, Bool.and_false, Bool.false_and]

theorem Known.resolveEpisodeAliases (h : Known v₀ aliases m v) :
    Alone ingestStorage (fun r v => Known v₀ aliases m v ∧ r = .some m) (resolveEpisodeAliases aliases) v := by
  unfold Podcasts.resolveEpisodeAliases
  rw [if_neg (by simpa using h.nonempty)]
  refine Alone.bind (fun _ v h => ?_) (h.lockEpisodeAliases aliases)
  refine Alone.bind (P := fun rows v => Known v₀ aliases m v ∧ (rows.map EpisodeIdentity.episodeMediaId).dedup = [m])
    (fun rows v h => ?_) (Alone.query h.unique_now fun _ => ⟨h, h.resolves⟩)
  obtain ⟨h, hrows⟩ := h
  simp only [hrows]
  refine Alone.bind (P := fun existing v => Known v₀ aliases m v ∧ existing = v₀.aliasesOf m)
    (fun existing v h => ?_) (Alone.query h.unique_now fun _ => ⟨h, h.same.aliasesOf m⟩)
  obtain ⟨h, rfl⟩ := h
  rw [h.requireOneStrong, h.hasEquivalence]
  exact ⟨h, rfl⟩

theorem Known.attachAlias (h : Known v₀ aliases m v) {a : EpisodeAlias} (ha : a ∈ aliases) :
    Alone ingestStorage (fun _ v => Known v₀ aliases m v) (attachAlias m a) v := by
  refine Alone.bind (P := fun row v => Known v₀ aliases m v ∧ ∃ i, row = .some i ∧ i.episodeMediaId = m)
    (fun row v h => ?_) (Alone.query h.unique_now fun _ => ⟨h, ?_⟩)
  · obtain ⟨h, i, rfl, hi⟩ := h
    simp only [hi, if_true]
    exact h
  · cases hfind : v.identities.find? fun i => i.episodeAlias == a with
    | none =>
      have hno := List.find?_eq_none.1 hfind ⟨a.scheme, a.value, m⟩ (h.same.identities ▸ h.bound a ha)
      simp [EpisodeIdentity.episodeAlias] at hno
    | some i =>
      have hi := List.mem_of_find?_eq_some hfind
      have halias : i.episodeAlias = a := by simpa using List.find?_some hfind
      rw [h.same.identities] at hi
      subst halias
      exact ⟨i, rfl, Bound.unique h.unique (a := i.episodeAlias) hi (h.bound _ ha)⟩

theorem Known.attachEpisodeAliases (h : Known v₀ aliases m v) :
    Alone ingestStorage (fun _ v => Known v₀ aliases m v) (attachEpisodeAliases m aliases) v := by
  unfold Podcasts.attachEpisodeAliases
  rw [if_neg (by simpa using h.nonempty)]
  refine Alone.bind (fun _ v h => ?_) (h.lockEpisodeAliases aliases)
  refine Alone.bind (P := fun existing v => Known v₀ aliases m v ∧ existing = v₀.aliasesOf m)
    (fun existing v h => ?_) (Alone.query h.unique_now fun _ => ⟨h, h.same.aliasesOf m⟩)
  obtain ⟨h, rfl⟩ := h
  rw [h.requireOneStrong]
  exact Alone.forM (fun a ha v h => h.attachAlias ha) h

theorem diagnosticEpisodeAlias_eq_ok {l : List EpisodeAlias} (h : l ≠ []) : ∃ a, diagnosticEpisodeAlias l = .ok a := by
  cases l with
  | nil => exact absurd rfl h
  | cons a rest => exact ⟨_, rfl⟩

theorem Known.ingestEpisode (h : Known v₀ aliases m v) :
    Alone ingestStorage (fun r v => SameIdentities v₀ v ∧ r = .some m) (ingestEpisode aliases) v := by
  unfold Podcasts.ingestEpisode
  rw [if_neg (by simpa using h.nonempty)]
  refine Alone.bind (fun r v h => ?_) h.resolveEpisodeAliases
  obtain ⟨h, rfl⟩ := h
  refine Alone.bind (fun _ v h => ?_) h.attachEpisodeAliases
  refine Alone.bind (P := fun own v => Known v₀ aliases m v ∧ own = v₀.aliasesOf m)
    (fun own v h => ?_) (Alone.query h.unique_now fun _ => ⟨h, h.same.aliasesOf m⟩)
  obtain ⟨h, rfl⟩ := h
  have hown : v₀.aliasesOf m ≠ [] := by
    obtain ⟨a, ha⟩ := List.exists_mem_of_ne_nil _ h.nonempty
    exact List.ne_nil_of_mem (h.subset ha)
  obtain ⟨diagnosticAlias, hdiagnostic⟩ := diagnosticEpisodeAlias_eq_ok hown
  rw [hdiagnostic]
  have hsame : SameIdentities v₀ ((IngestWrite.updateProviderId m diagnosticAlias.value).apply v) :=
    ⟨h.same.podcast, h.same.identities, (mediaIds_updateProviderId v m _).trans h.same.mediaIds⟩
  exact fun _ => ⟨hsame.unique.trans h.unique, hsame, rfl⟩

theorem alone_ingestEpisodes (hp : v₀.podcastExists = true) (hu : ingestStorage.unique v₀ = true)
    (hid : v₀.Identified canonicalUrl) {items : List (List EpisodeAlias)} {rs : List (Option Uuid)}
    (h : List.Forall₂ v₀.Resolves items rs) (hsame : SameIdentities v₀ v) :
    Alone ingestStorage (fun rs' v => SameIdentities v₀ v ∧ rs' = rs) (items.mapM' ingestEpisode) v := by
  induction h generalizing v with
  | nil => exact ⟨hsame, rfl⟩
  | @cons aliases r items rs hitem _ ih =>
    have hfirst : Alone ingestStorage (fun r' v => SameIdentities v₀ v ∧ r' = r) (ingestEpisode aliases) v := by
      cases r with
      | none =>
        obtain rfl : aliases = [] := hitem
        exact ⟨hsame, rfl⟩
      | some m => exact Known.ingestEpisode ⟨hsame, hp, hu, hid.strong m, hitem.1, hitem.2⟩
    refine Alone.bind (fun r' v h => ?_) hfirst
    obtain ⟨hsame, rfl⟩ := h
    refine Alone.bind (fun rs' v h => ?_) (ih hsame)
    exact ⟨h.1, by rw [h.2]⟩

/-- **A batch that was ingested is ingested again to the same episodes**, and
no episode and no alias is made. -/
theorem alone_ingest (hu : ingestStorage.unique v₀ = true) (hid : v₀.Identified canonicalUrl) {b : IngestedBatch}
    (hb : b ∈ v₀.ingested) :
    Alone ingestStorage (fun rs v => SameIdentities v₀ v ∧ rs = b.mediaIds) (syncSubscriptionIngest canonicalUrl b.episodes) v₀ := by
  obtain ⟨hp, aliases, hvalid, hres⟩ := hid.settled b hb
  have hexists (v : IngestTables) (hv : v = v₀) :
      Alone ingestStorage (fun found v => v = v₀ ∧ found = true) podcastExists v := by
    subst hv
    exact Alone.query hu fun _ => ⟨rfl, hp⟩
  unfold syncSubscriptionIngest lockSubscriptionIngestParent
  rw [hvalid]
  refine Alone.bind (P := fun as v => v = v₀ ∧ as = aliases) (fun as v h => ?_) ?_
  · obtain ⟨rfl, rfl⟩ := h
    exact alone_ingestEpisodes hp hu hid hres ⟨rfl, rfl, rfl⟩
  · refine Alone.bind (P := fun as v => v = v₀ ∧ as = aliases) (fun as v h => ?_) ⟨rfl, rfl⟩
    obtain ⟨rfl, rfl⟩ := h
    refine Alone.bind (P := fun _ w => w = v) (fun _ w hw => ?_) (Alone.bind (fun found w hw => ?_) (hexists v rfl))
    · refine Alone.bind (P := fun _ w => w = v) (fun _ w hw => ?_) hw
      refine Alone.bind (fun found w hw => ?_) (hexists w hw)
      rw [if_pos hw.2]
      exact ⟨hw.1, rfl⟩
    · rw [if_pos hw.2]
      exact Alone.forM (fun _ _ _ hw => hw) hw.1

end

/-! ## Every run -/

section

variable {canonicalUrl : List Char → Option (List Char)}

abbrev IngestCluster := Cluster IngestRow IngestTables Uuid IngestWrite ApiError

/-- Ingests of any batches, in any number and any order of steps. -/
def ingestSystem (canonicalUrl : List Char → Option (List Char)) : System IngestCluster (Event (List FeedEpisode) Uuid) :=
  Cluster.system ingestStorage (ingestDiscipline canonicalUrl) (ingestBatch canonicalUrl)

theorem identified_of_reachable {S : IngestCluster} (h : (ingestSystem canonicalUrl).Reachable S) :
    ingestStorage.unique S.tables = true ∧ S.tables.Identified canonicalUrl :=
  Cluster.reachable_inv (D := ingestDiscipline canonicalUrl) Keeps.refl ingestBatch_commits h

theorem IngestTables.Settled.bound {v : IngestTables} {b : IngestedBatch} {e : FeedEpisode} {m : Uuid} {r : List Char}
    (h : v.Settled canonicalUrl b) (he : (e, .some m) ∈ b.episodes.zip b.mediaIds)
    (hr : nonblank e.podcastIndexEpisodeRef = .some r) : v.Bound ⟨.podcastIndex, r⟩ m := by
  obtain ⟨aliases, hvalid, hres⟩ := h
  rw [validate_eq_ok hvalid, List.forall₂_map_left_iff] at hres
  have hitem : v.Resolves (aliasesFromEpisode canonicalUrl e) (.some m) := (List.forall₂_iff_zip.1 hres).2 he
  exact hitem.2 _ (podcastIndex_mem hr)

theorem tables_of_raised {S S' : IngestCluster} {t : Nat} {ws : List IngestWrite} {e : ApiError}
    {ev : Event (List FeedEpisode) Uuid} (ht : S.running t = .some ⟨ws, .fail e⟩) (hs : (ingestSystem canonicalUrl).step S ev S')
    (hends : S'.running t ≠ S.running t) : S'.tables = S.tables := by
  have hs : S.next ingestStorage (ingestBatch canonicalUrl) ev = .some S' := hs
  cases ev with
  | commit u =>
    simp only [Cluster.next] at hs
    split at hs
    next ws' hu =>
      split at hs
      next =>
        obtain rfl := Option.some.inj hs
        have hne : t ≠ u := fun heq => by rw [heq, hu] at ht; cases ht
        exact absurd (by simp [Cluster.finish, hne]) hends
      next => cases hs
    next => cases hs
  | start u c =>
    simp only [Cluster.next] at hs
    split at hs
    next => exact (Option.some.inj hs) ▸ rfl
    next => cases hs
  | lock u =>
    simp only [Cluster.next] at hs
    split at hs
    next =>
      split at hs
      next => exact (Option.some.inj hs) ▸ rfl
      next => cases hs
    next => cases hs
  | exec u x =>
    simp only [Cluster.next] at hs
    split at hs
    next =>
      split at hs
      next => exact (Option.some.inj hs) ▸ rfl
      next => cases hs
    next => cases hs
  | abort u =>
    simp only [Cluster.next] at hs
    split at hs
    next => exact (Option.some.inj hs) ▸ rfl
    next => cases hs

/-- **Episodes keep their identity.** In every state a run of ingests reaches,
an alias is bound to one episode, an episode has one Podcast Index and one guid
alias at most, and no later state has lost an alias; items with one Podcast
Index reference have one episode; a batch that was ingested is ingested again
to the same episodes, by itself, with no new episode or alias; and one that
raised leaves the tables as they were. -/
theorem episode_identity {S : IngestCluster} (h : (ingestSystem canonicalUrl).Reachable S) :
    (∀ i ∈ S.tables.identities, i.episodeMediaId ∈ S.tables.mediaIds ∧
      ∀ j ∈ S.tables.identities, i.episodeAlias = j.episodeAlias → i.episodeMediaId = j.episodeMediaId) ∧
    (∀ i ∈ S.tables.identities, ∀ j ∈ S.tables.identities, i.episodeMediaId = j.episodeMediaId → i.scheme = j.scheme →
      i.scheme.Strong → i.value = j.value) ∧
    (∀ tr, (ingestSystem canonicalUrl).Run S tr → S.tables.identities ⊆ (last S tr).tables.identities) ∧
    (∀ b ∈ S.tables.ingested, ∀ c ∈ S.tables.ingested, ∀ e e' m m' r, (e, .some m) ∈ b.episodes.zip b.mediaIds →
      (e', .some m') ∈ c.episodes.zip c.mediaIds → nonblank e.podcastIndexEpisodeRef = .some r →
        nonblank e'.podcastIndexEpisodeRef = .some r → m = m') ∧
    (∀ b ∈ S.tables.ingested, Alone ingestStorage (fun mediaIds v => mediaIds = b.mediaIds ∧
      v.identities = S.tables.identities ∧ v.mediaIds = S.tables.mediaIds)
        (syncSubscriptionIngest canonicalUrl b.episodes) S.tables) ∧
    (∀ t ws e ev S', S.running t = .some ⟨ws, .fail e⟩ → (ingestSystem canonicalUrl).step S ev S' →
      S'.running t ≠ S.running t → S'.tables = S.tables) := by
  obtain ⟨hu, hid⟩ := identified_of_reachable h
  refine ⟨fun i hi => ⟨hid.episode i hi, fun j hj ha => ?_⟩, fun i hi j hj hm hs hstrong => ?_, fun tr hr => ?_,
    fun b hb c hc e e' m m' r he he' hr hr' => ?_, fun b hb => ?_, fun t ws e ev S' ht hs hends => tables_of_raised ht hs hends⟩
  · exact Bound.unique hu (a := i.episodeAlias) hi (by rw [ha]; exact hj)
  · have hmem : i.episodeAlias ∈ S.tables.aliasesOf i.episodeMediaId := mem_aliasesOf.2 hi
    have hmem' : j.episodeAlias ∈ S.tables.aliasesOf i.episodeMediaId := mem_aliasesOf.2 (by rw [hm]; exact hj)
    exact hid.strong i.episodeMediaId _ hmem _ hmem' hs hstrong
  · have hkeeps : Keeps S.tables (last S tr).tables :=
      Cluster.run_keeps (D := ingestDiscipline canonicalUrl) Keeps.refl ingestBatch_commits (fun _ _ _ => Keeps.trans) h hr
    exact hkeeps.identities
  · exact Bound.unique hu ((hid.settled b hb).2.bound he hr) ((hid.settled c hc).2.bound he' hr')
  · exact (alone_ingest hu hid hb).mono fun rs v hv => ⟨hv.2, hv.1.identities, hv.1.mediaIds⟩

end

/-! ### Two ingests of one episode -/

def feedItem : FeedEpisode := ⟨.some "31".toList, .some "tag:1".toList, .none⟩

/-- The same episode from the Podcast Index, without its guid. -/
def discoveredItem : FeedEpisode := ⟨.some " 31 ".toList, .none, .none⟩

def acquiringBoth : List (Event (List FeedEpisode) Uuid) :=
  [.start 0 [feedItem, ⟨.none, .none, .none⟩], .start 1 [discoveredItem], .exec 0 0, .exec 1 0, .lock 0, .lock 0, .lock 0,
    .exec 0 0, .exec 0 0, .lock 0, .lock 0, .exec 0 0, .exec 0 50, .exec 0 0, .lock 0, .lock 0, .exec 0 0, .exec 0 0, .exec 0 0,
    .exec 0 0, .exec 0 0, .exec 0 0, .commit 0, .lock 1, .lock 1, .exec 1 0, .exec 1 0, .lock 1, .exec 1 0, .exec 1 0,
    .exec 1 0, .lock 1, .exec 1 0, .exec 1 0, .exec 1 0, .exec 1 0, .exec 1 0, .commit 1]

def noEpisodes : IngestCluster := ⟨⟨true, [], [], []⟩, fun _ => .none, fun _ => .none⟩

def bothAcquired : IngestCluster :=
  last noEpisodes (replay (Cluster.next ingestStorage (ingestBatch Option.some)) noEpisodes acquiringBoth)

theorem idle_noEpisodes : Cluster.Idle (ingestDiscipline Option.some) noEpisodes where
  inv := ⟨by decide, ⟨by simp [noEpisodes], by simp [noEpisodes, aliasesOf, OneStrong], by simp [noEpisodes]⟩⟩
  holder _ := rfl
  running _ := rfl

theorem reachable_bothAcquired : (ingestSystem Option.some).Reachable bothAcquired :=
  System.reachable_replay acquiringBoth idle_noEpisodes

/-- The second ingest waits for the first one's locks and finds its episode. -/
theorem episode_identity_acquired :
    bothAcquired.tables.ingested = [⟨[feedItem, ⟨.none, .none, .none⟩], [.some 50, .none]⟩, ⟨[discoveredItem], [.some 50]⟩] ∧
      bothAcquired.tables.mediaIds = [50] ∧
      Alone ingestStorage (fun mediaIds v => mediaIds = [.some 50] ∧ v.identities = bothAcquired.tables.identities ∧
        v.mediaIds = bothAcquired.tables.mediaIds) (syncSubscriptionIngest Option.some [discoveredItem]) bothAcquired.tables :=
  ⟨by decide +kernel, by decide +kernel,
    (episode_identity reachable_bothAcquired).2.2.2.2.1 ⟨[discoveredItem], [.some 50]⟩ (by decide +kernel)⟩

end Nexus.Podcasts
