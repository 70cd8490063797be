/-
What every ingest keeps: an alias is bound to one episode, an episode has one
strong alias of a scheme, and the items of an ingested batch stay with their
episodes.

The podcast's lock is held from the first item to the commit, so what an
ingest sees changes by its own writes only: `Takes` is a Hoare triple on that
view. A batch that was ingested is settled, and ingesting it again reads the
same episodes and binds nothing (`alone_ingest`).
-/
import Nexus.Podcasts.EpisodeIdentity
import Nexus.Lib.ExceptFacts
import Mathlib.Data.List.Nodup
import Mathlib.Data.List.Dedup

namespace Nexus.Podcasts
open RowLocks Transition ExceptFacts

/-! ## What the tables keep -/

/-- No two aliases of a strong scheme. -/
def OneStrong (aliases : List EpisodeAlias) : Prop :=
  ∀ a ∈ aliases, ∀ b ∈ aliases, a.scheme = b.scheme → a.scheme.Strong → a.value = b.value

namespace IngestTables

variable (v : IngestTables)

def mediaIds : List Uuid := v.episodes.map EpisodeMedia.mediaId

def Bound (a : EpisodeAlias) (mediaId : Uuid) : Prop := ⟨a.scheme, a.value, mediaId⟩ ∈ v.identities

/-- The episode an item of these aliases has: all of them are bound to it. -/
def Resolves (aliases : List EpisodeAlias) : Option Uuid → Prop
  | .none => aliases = []
  | .some mediaId => aliases ≠ [] ∧ ∀ a ∈ aliases, v.Bound a mediaId

variable (canonicalUrl : List Char → Option (List Char))

def Settled (b : IngestedBatch) : Prop :=
  ∃ aliases, validateEpisodeAliasBatch canonicalUrl b.episodes = .ok aliases ∧ List.Forall₂ v.Resolves aliases b.mediaIds

structure Identified : Prop where
  episode : ∀ i ∈ v.identities, i.episodeMediaId ∈ v.mediaIds
  strong : ∀ m, OneStrong (v.aliasesOf m)
  settled : ∀ b ∈ v.ingested, v.podcastExists = true ∧ v.Settled canonicalUrl b

/-- No identity and no episode is lost. -/
structure Keeps (v v' : IngestTables) : Prop where
  podcast : v'.podcastExists = v.podcastExists
  identities : v.identities ⊆ v'.identities
  mediaIds : v.mediaIds ⊆ v'.mediaIds

end IngestTables

open IngestTables

/-- Every write needs the podcast's row. -/
def ingestDiscipline (canonicalUrl : List Char → Option (List Char)) : Discipline IngestRow IngestTables IngestWrite where
  guard _ r := r = .podcast
  inv v := ingestStorage.unique v = true ∧ v.Identified canonicalUrl
  keeps := Keeps

section

variable {v v' w : IngestTables} {a b : EpisodeAlias} {aliases : List EpisodeAlias} {m : Uuid}

theorem IngestTables.Keeps.refl (v : IngestTables) : Keeps v v := ⟨rfl, List.Subset.refl _, List.Subset.refl _⟩

theorem IngestTables.Keeps.trans (h : Keeps v v') (h' : Keeps v' w) : Keeps v w :=
  ⟨h'.podcast.trans h.podcast, List.Subset.trans h.identities h'.identities, List.Subset.trans h.mediaIds h'.mediaIds⟩

theorem mem_aliasesOf : a ∈ v.aliasesOf m ↔ v.Bound a m := by
  simp only [aliasesOf, Bound, List.mem_map, List.mem_filter, beq_iff_eq]
  constructor
  · rintro ⟨i, ⟨hi, rfl⟩, rfl⟩
    exact hi
  · intro h
    exact ⟨_, ⟨h, rfl⟩, rfl⟩

theorem IngestTables.Bound.keeps (h : v.Bound a m) (hk : Keeps v v') : v'.Bound a m := hk.identities h

theorem IngestTables.Resolves.keeps (hk : Keeps v v') : ∀ {r : Option Uuid}, v.Resolves aliases r → v'.Resolves aliases r
  | .none, h => h
  | .some _, h => ⟨h.1, fun a ha => Bound.keeps (h.2 a ha) hk⟩

theorem IngestTables.Bound.unique {m' : Uuid} (hu : ingestStorage.unique v = true) (h : v.Bound a m) (h' : v.Bound a m') : m = m' := by
  simp only [ingestStorage, Bool.and_eq_true, decide_eq_true_eq] at hu
  have hrow := List.inj_on_of_nodup_map hu.2 h h' rfl
  exact congrArg EpisodeIdentity.episodeMediaId hrow

end

/-! ## Aliases -/

section

variable {aliases : List EpisodeAlias} {canonicalUrl : List Char → Option (List Char)}

theorem mem_sortedAliases {a : EpisodeAlias} : a ∈ sortedAliases aliases ↔ a ∈ aliases := by
  simp only [sortedAliases, List.mem_insertionSort, List.mem_dedup]

theorem dedup_length_le {α : Type} [DecidableEq α] {l : List α} : l.dedup.length ≤ 1 ↔ ∀ a ∈ l, ∀ b ∈ l, a = b := by
  constructor
  · intro h a ha b hb
    rw [← List.mem_dedup] at ha hb
    match hl : l.dedup, h, ha, hb with
    | [c], _, ha, hb => exact (List.mem_singleton.1 ha).trans (List.mem_singleton.1 hb).symm
  · intro h
    match hl : l.dedup with
    | [] => exact Nat.zero_le 1
    | [_] => exact le_rfl
    | a :: b :: rest =>
      exfalso
      have hmem (c : α) (hc : c ∈ a :: b :: rest) : c ∈ l := List.mem_dedup.1 (hl ▸ hc)
      have hnodup : (a :: b :: rest).Nodup := hl ▸ l.nodup_dedup
      refine (List.nodup_cons.1 hnodup).1 ?_
      rw [h a (hmem a (by simp)) b (hmem b (by simp))]
      exact List.mem_cons_self

theorem requireOneStrong_eq_ok : requireOneStrongAliasPerScheme aliases = .ok () ↔ OneStrong aliases := by
  have hscheme (s : EpisodeIdentityScheme) :
      ¬ 1 < ((aliases.filter fun a => a.scheme == s).map EpisodeAlias.value).dedup.length ↔
        ∀ a ∈ aliases, ∀ b ∈ aliases, a.scheme = s → b.scheme = s → a.value = b.value := by
    rw [not_lt, dedup_length_le]
    simp only [List.mem_map, List.mem_filter, beq_iff_eq]
    constructor
    · intro h a ha b hb hsa hsb
      exact h _ ⟨a, ⟨ha, hsa⟩, rfl⟩ _ ⟨b, ⟨hb, hsb⟩, rfl⟩
    · rintro h _ ⟨a, ⟨ha, hsa⟩, rfl⟩ _ ⟨b, ⟨hb, hsb⟩, rfl⟩
      exact h a ha b hb hsa hsb
  have hboth : requireOneStrongAliasPerScheme aliases = .ok () ↔
      ¬ 1 < ((aliases.filter fun a => a.scheme == .podcastIndex).map EpisodeAlias.value).dedup.length ∧
        ¬ 1 < ((aliases.filter fun a => a.scheme == .rssGuid).map EpisodeAlias.value).dedup.length := by
    by_cases hpi : 1 < ((aliases.filter fun a => a.scheme == .podcastIndex).map EpisodeAlias.value).dedup.length
    · simp [requireOneStrongAliasPerScheme, hpi, bind, Except.bind]
    · by_cases hguid : 1 < ((aliases.filter fun a => a.scheme == .rssGuid).map EpisodeAlias.value).dedup.length
      · simp [requireOneStrongAliasPerScheme, hpi, hguid, bind, Except.bind]
      · simp [requireOneStrongAliasPerScheme, hpi, hguid, bind, Except.bind, pure, Except.pure]
  rw [hboth, hscheme, hscheme]
  constructor
  · rintro ⟨hpi, hguid⟩ a ha b hb hs (hstrong | hstrong)
    · exact hpi a ha b hb hstrong (hs ▸ hstrong)
    · exact hguid a ha b hb hstrong (hs ▸ hstrong)
  · intro h
    refine ⟨fun a ha b hb hsa hsb => ?_, fun a ha b hb hsa hsb => ?_⟩
    · exact h a ha b hb (hsa.trans hsb.symm) (.inl hsa)
    · exact h a ha b hb (hsa.trans hsb.symm) (.inr hsa)

theorem validate_eq_ok {episodes : List FeedEpisode} {as : List (List EpisodeAlias)}
    (h : validateEpisodeAliasBatch canonicalUrl episodes = .ok as) : as = episodes.map (aliasesFromEpisode canonicalUrl) := by
  unfold validateEpisodeAliasBatch at h
  obtain ⟨_, -, h⟩ := bind_eq_ok.1 h
  exact (Except.ok.inj h).symm

theorem podcastIndex_mem {e : FeedEpisode} {r : List Char} (h : nonblank e.podcastIndexEpisodeRef = .some r) :
    ⟨.podcastIndex, r⟩ ∈ aliasesFromEpisode canonicalUrl e := by
  rw [aliasesFromEpisode, mem_sortedAliases, h]
  simp

end

/-! ## Under the podcast's lock -/

section

variable {canonicalUrl : List Char → Option (List Char)} {α β : Type}

abbrev IngestWp (canonicalUrl : List Char → Option (List Char)) (Q : α → Assn IngestRow IngestTables IngestWrite)
    (p : IngestTx α) : Assn IngestRow IngestTables IngestWrite := Wp ingestStorage (ingestDiscipline canonicalUrl) Q p

/-- The podcast is locked, nothing is lost, and the view satisfies `P`. -/
def Holding (P : IngestTables → Prop) : Assn IngestRow IngestTables IngestWrite := fun H s ws =>
  .podcast ∈ H ∧ Keeps s (ingestStorage.after ws s) ∧ P (ingestStorage.after ws s)

theorem Holding.stable (P : IngestTables → Prop) : Stable ingestStorage (ingestDiscipline canonicalUrl) (Holding P) where
  others := by
    rintro H s s' ws ⟨-, -, others, hothers, rfl⟩ h
    cases others with
    | nil => exact h
    | cons w _ => exact absurd h.1 (hothers w List.mem_cons_self .podcast rfl)
  locks _ h := ⟨Set.mem_insert_of_mem _ h.1, h.2⟩

/-- Under the lock, `p` takes views that satisfy `P` to views that satisfy `Q`. -/
def Takes (canonicalUrl : List Char → Option (List Char)) (P : IngestTables → Prop) (p : IngestTx α)
    (Q : α → IngestTables → Prop) : Prop :=
  ∀ H s ws, Holding P H s ws → IngestWp canonicalUrl (fun a => Holding (Q a)) p H s ws

variable {P P' : IngestTables → Prop} {Q : α → IngestTables → Prop} {R : β → IngestTables → Prop}

theorem Holding.mono (hP : ∀ v, P v → P' v) {H s ws} (h : Holding P H s ws) : Holding P' H s ws := ⟨h.1, h.2.1, hP _ h.2.2⟩

theorem Takes.of_imp {p : IngestTx α} (hP : ∀ v, P v → P' v) (h : Takes canonicalUrl P' p Q) : Takes canonicalUrl P p Q :=
  fun H s ws hs => h H s ws (hs.mono hP)

theorem Takes.pure {a : α} (h : ∀ v, P v → Q a v) : Takes canonicalUrl P (pure a) Q :=
  fun _ _ _ hs => Wp.done (Holding.stable P) hs fun _ ht => ht.mono h

theorem Takes.conflict {message : String} : Takes canonicalUrl P (conflict message : IngestTx α) Q := fun _ _ _ _ => Wp.fail

theorem Takes.bind {p : IngestTx α} {f : α → IngestTx β} (hp : Takes canonicalUrl P p Q)
    (hf : ∀ a, Takes canonicalUrl (Q a) (f a) R) : Takes canonicalUrl P (p >>= f) R :=
  fun H s ws hs => Wp.seq (hp H s ws hs) fun a H s ws ha => hf a H s ws ha

theorem Takes.ofExcept {x : Except ApiError α} : Takes canonicalUrl P (.ofExcept x) fun a v => P v ∧ x = .ok a := by
  cases x with
  | error e => exact fun _ _ _ _ => Wp.fail
  | ok a => exact fun _ _ _ hs => Wp.done (Holding.stable P) hs fun _ ht => ht.mono fun _ hv => ⟨hv, rfl⟩

theorem Takes.query {g : IngestTables → Uuid → α} : Takes canonicalUrl P (.query g) fun a v => P v ∧ ∃ x, a = g v x := by
  intro H s ws hs t ht hu x
  refine ⟨by simp, fun t' ht' => ?_⟩
  rw [List.append_nil]
  have hheld := (Holding.stable P).others_all ht hs
  have hread : Holding (fun v => P v ∧ v = ingestStorage.after ws t) H t ws := ⟨hheld.1, hheld.2.1, hheld.2.2, rfl⟩
  exact ((Holding.stable _).others_all ht' hread).mono fun v hv => ⟨hv.1, x, by rw [hv.2]⟩

theorem Takes.returning {w : Uuid → IngestWrite} {g : Uuid → α}
    (h : ∀ v x, P v → ingestStorage.unique v = true → Keeps v ((w x).apply v) ∧ Q (g x) ((w x).apply v)) :
    Takes canonicalUrl P (.returning (fun _ x => [w x]) fun _ x => g x) Q := by
  intro H s ws hs t ht hu x
  have hheld := (Holding.stable P).others_all ht hs
  refine ⟨fun _ _ r hr => hr ▸ hheld.1, fun t' ht' => ?_⟩
  obtain ⟨hkeeps, hQ⟩ := h _ x hheld.2.2 hu
  have hafter : Holding (Q (g x)) H t (ws ++ [w x]) := by
    refine ⟨hheld.1, ?_, ?_⟩
    · rw [Storage.after_append]
      exact hheld.2.1.trans hkeeps
    · rw [Storage.after_append]
      exact hQ
  exact (Holding.stable _).others_all ht' hafter

theorem Takes.write {w : IngestWrite} {Q : Unit → IngestTables → Prop}
    (h : ∀ v, P v → ingestStorage.unique v = true → Keeps v (w.apply v) ∧ Q () (w.apply v)) :
    Takes canonicalUrl P (.write fun _ _ => [w]) Q := Takes.returning fun v _ hv hu => h v hv hu

theorem Takes.lockRow {r : IngestRow} : Takes canonicalUrl P (.lockRow r) fun _ => P :=
  fun _ _ _ hs => (Wp.lockRow (Holding.stable P) hs).mono fun _ _ _ _ h => h.1

/-- A loop over items keeps what every turn keeps, and gathers what each one
leaves. -/
theorem Takes.forM {f : β → IngestTx Unit} {J : List β → IngestTables → Prop} :
    ∀ (l seen : List β), (∀ b ∈ l, ∀ seen, Takes canonicalUrl (J seen) (f b) fun _ => J (seen ++ [b])) →
      Takes canonicalUrl (J seen) (l.forM f) fun _ => J (seen ++ l)
  | [], seen, _ => Takes.pure fun v hv => (List.append_nil seen).symm ▸ hv
  | b :: l, seen, hf => by
    refine Takes.bind (hf b List.mem_cons_self seen) fun _ => ?_
    have hrest := Takes.forM l (seen ++ [b]) fun c hc => hf c (List.mem_cons_of_mem b hc)
    simpa only [List.append_assoc, List.singleton_append] using hrest

theorem takes_lockEpisodeAliases {aliases : List EpisodeAlias} :
    Takes canonicalUrl P (lockEpisodeAliases aliases) fun _ => P := by
  refine Takes.bind Takes.query fun found => ?_
  split
  · exact Takes.of_imp (fun v hv => hv.1) (Takes.forM (J := fun _ => P) _ [] fun _ _ _ => Takes.lockRow)
  · exact Takes.conflict

end

/-! ## An item -/

section

variable {canonicalUrl : List Char → Option (List Char)} {v : IngestTables} {F : IngestTables → Prop}
  {aliases allowed : List EpisodeAlias} {m : Uuid}

theorem IngestTables.Settled.keeps {v' : IngestTables} {b : IngestedBatch} (h : v.Settled canonicalUrl b) (hk : Keeps v v') :
    v'.Settled canonicalUrl b := by
  obtain ⟨aliases, hvalid, hres⟩ := h
  exact ⟨aliases, hvalid, hres.imp fun _ _ => Resolves.keeps hk⟩

/-- What ingests keep, with a fact that no loss spoils. -/
structure Ingesting (canonicalUrl : List Char → Option (List Char)) (F : IngestTables → Prop) (v : IngestTables) : Prop where
  podcast : v.podcastExists = true
  identified : v.Identified canonicalUrl
  fact : F v

theorem IngestTables.Identified.settled_keeps {v' : IngestTables} (h : v.Identified canonicalUrl) (hk : Keeps v v')
    (hsame : v'.ingested = v.ingested) : ∀ b ∈ v'.ingested, v'.podcastExists = true ∧ v'.Settled canonicalUrl b := by
  intro b hb
  obtain ⟨hexists, hsettled⟩ := h.settled b (hsame ▸ hb)
  exact ⟨hk.podcast.trans hexists, hsettled.keeps hk⟩

/-- An episode, and the aliases it may have: of those no two are strong ones of
a scheme. -/
structure Attaching (canonicalUrl : List Char → Option (List Char)) (F : IngestTables → Prop) (m : Uuid)
    (allowed seen : List EpisodeAlias) (v : IngestTables) : Prop extends Ingesting canonicalUrl F v where
  media : m ∈ v.mediaIds
  own : v.aliasesOf m ⊆ allowed
  bound : ∀ a ∈ seen, v.Bound a m

theorem keeps_insertIdentity (v : IngestTables) (i : EpisodeIdentity) : Keeps v ((IngestWrite.insertIdentity i).apply v) :=
  ⟨rfl, List.subset_append_left _ _, List.Subset.refl _⟩

theorem keeps_insertEpisode (v : IngestTables) (e : EpisodeMedia) : Keeps v ((IngestWrite.insertEpisode e).apply v) := by
  refine ⟨rfl, List.Subset.refl _, ?_⟩
  simp only [mediaIds, IngestWrite.apply, List.map_append]
  exact List.subset_append_left _ _

theorem mediaIds_updateProviderId (v : IngestTables) (m : Uuid) (providerId : List Char) :
    ((IngestWrite.updateProviderId m providerId).apply v).mediaIds = v.mediaIds := by
  simp only [mediaIds, IngestWrite.apply, List.map_map]
  refine List.map_congr_left fun e _ => ?_
  simp only [Function.comp_apply]
  split <;> rfl

theorem keeps_updateProviderId (v : IngestTables) (m : Uuid) (providerId : List Char) :
    Keeps v ((IngestWrite.updateProviderId m providerId).apply v) :=
  ⟨rfl, List.Subset.refl _, (mediaIds_updateProviderId v m providerId).symm ▸ List.Subset.refl _⟩

theorem aliasesOf_insertIdentity (v : IngestTables) (i : EpisodeIdentity) (m : Uuid) :
    ((IngestWrite.insertIdentity i).apply v).aliasesOf m =
      v.aliasesOf m ++ if i.episodeMediaId = m then [i.episodeAlias] else [] := by
  simp only [aliasesOf, IngestWrite.apply, List.filter_append, List.map_append]
  by_cases hm : i.episodeMediaId = m
  · simp [hm]
  · simp [hm]

theorem Attaching.insert (hF : ∀ v v', Keeps v v' → F v → F v') (hone : OneStrong allowed) {a : EpisodeAlias}
    {seen : List EpisodeAlias} (ha : a ∈ allowed) (h : Attaching canonicalUrl F m allowed seen v) :
    Attaching canonicalUrl F m allowed (seen ++ [a]) ((IngestWrite.insertIdentity ⟨a.scheme, a.value, m⟩).apply v) := by
  have hk := keeps_insertIdentity v ⟨a.scheme, a.value, m⟩
  have hown : ((IngestWrite.insertIdentity ⟨a.scheme, a.value, m⟩).apply v).aliasesOf m ⊆ allowed := by
    rw [aliasesOf_insertIdentity, if_pos rfl]
    exact List.append_subset.2 ⟨h.own, by simpa [EpisodeIdentity.episodeAlias] using ha⟩
  refine ⟨⟨h.podcast, ⟨?_, fun k => ?_, h.identified.settled_keeps hk rfl⟩, hF _ _ hk h.fact⟩, h.media, hown, fun b hb => ?_⟩
  · intro i hi
    rcases List.mem_append.1 hi with hi | hi
    · exact h.identified.episode i hi
    · obtain rfl := List.mem_singleton.1 hi
      exact h.media
  · by_cases hm : m = k
    · subst hm
      exact fun x hx y hy => hone x (hown hx) y (hown hy)
    · rw [aliasesOf_insertIdentity, if_neg hm, List.append_nil]
      exact h.identified.strong k
  · rcases List.mem_append.1 hb with hb | hb
    · exact (h.bound b hb).keeps hk
    · obtain rfl := List.mem_singleton.1 hb
      exact List.mem_append_right _ (List.mem_singleton.2 rfl)

theorem takes_attachAlias (hF : ∀ v v', Keeps v v' → F v → F v') (hone : OneStrong allowed) {a : EpisodeAlias}
    (ha : a ∈ allowed) (seen : List EpisodeAlias) :
    Takes canonicalUrl (Attaching canonicalUrl F m allowed seen) (attachAlias m a) fun _ =>
      Attaching canonicalUrl F m allowed (seen ++ [a]) := by
  refine Takes.bind Takes.query fun row => ?_
  cases row with
  | none => exact Takes.write fun v hv _ => ⟨keeps_insertIdentity v _, hv.1.insert hF hone ha⟩
  | some i =>
    dsimp only
    split
    next hm =>
      refine Takes.pure fun v hv => ?_
      obtain ⟨hv, _, hfind⟩ := hv
      have hfound := List.find?_some hfind.symm
      have hmem := List.mem_of_find?_eq_some hfind.symm
      refine ⟨hv.toIngesting, hv.media, hv.own, fun b hb => ?_⟩
      rcases List.mem_append.1 hb with hb | hb
      · exact hv.bound b hb
      · obtain rfl := List.mem_singleton.1 hb
        rw [beq_iff_eq] at hfound
        subst hfound hm
        exact hmem
    next => exact Takes.conflict

/-- An episode that takes a list of aliases has them all, and the strong ones
it has stay one of each scheme. -/
theorem takes_attachEpisodeAliases (hF : ∀ v v', Keeps v v' → F v → F v') :
    Takes canonicalUrl (fun v => Ingesting canonicalUrl F v ∧ m ∈ v.mediaIds) (attachEpisodeAliases m aliases)
      fun _ v => Ingesting canonicalUrl F v ∧ v.Resolves aliases (.some m) := by
  unfold attachEpisodeAliases
  split
  · exact Takes.conflict
  next hne =>
    refine Takes.bind takes_lockEpisodeAliases fun _ => Takes.bind Takes.query fun existing => ?_
    refine Takes.bind Takes.ofExcept fun _ => ?_
    by_cases hone : OneStrong (existing ++ aliases)
    swap
    · intro H s ws hs
      exact absurd (requireOneStrong_eq_ok.1 hs.2.2.2) hone
    have hloop := Takes.forM (J := Attaching canonicalUrl F m (existing ++ aliases)) aliases [] fun a ha seen =>
      takes_attachAlias hF hone (List.mem_append_right _ ha) seen
    refine fun H s ws hs => (hloop H s ws (hs.mono fun v hv => ?_)).mono fun _ _ _ _ h => h.mono fun v hv => ?_
    · obtain ⟨⟨⟨hv, hmedia⟩, _, hexisting⟩, -⟩ := hv
      exact ⟨hv, hmedia, hexisting ▸ List.subset_append_left _ _, by simp⟩
    · exact ⟨hv.toIngesting, by simpa using hne, hv.bound⟩

theorem takes_resolveEpisodeAliases :
    Takes canonicalUrl (Ingesting canonicalUrl F) (resolveEpisodeAliases aliases) fun r v =>
      Ingesting canonicalUrl F v ∧ ∀ m, r = .some m → m ∈ v.mediaIds := by
  unfold resolveEpisodeAliases
  split
  · exact Takes.pure fun v hv => ⟨hv, nofun⟩
  refine Takes.bind takes_lockEpisodeAliases fun _ => Takes.bind Takes.query fun rows => ?_
  split
  · exact Takes.pure fun v hv => ⟨hv.1, nofun⟩
  next m hrows =>
    refine Takes.bind Takes.query fun existing => Takes.bind Takes.ofExcept fun _ => ?_
    split
    · exact Takes.conflict
    · refine Takes.pure fun v hv => ⟨hv.1.1.1, fun m' hm' => ?_⟩
      obtain ⟨⟨⟨hv, _, hread⟩, -⟩, -⟩ := hv
      obtain rfl := Option.some.inj hm'
      have hmem : m ∈ (rows.map EpisodeIdentity.episodeMediaId).dedup := hrows ▸ List.mem_singleton_self m
      obtain ⟨i, hi, rfl⟩ := List.mem_map.1 (List.mem_dedup.1 hmem)
      rw [hread] at hi
      exact hv.identified.episode i (List.mem_filter.1 hi).1
  · exact Takes.conflict

theorem Ingesting.updateProviderId (hF : ∀ v v', Keeps v v' → F v → F v') (h : Ingesting canonicalUrl F v) (m : Uuid)
    (providerId : List Char) : Ingesting canonicalUrl F ((IngestWrite.updateProviderId m providerId).apply v) := by
  have hk := keeps_updateProviderId v m providerId
  refine ⟨h.podcast, ⟨fun i hi => ?_, h.identified.strong, h.identified.settled_keeps hk rfl⟩, hF _ _ hk h.fact⟩
  exact hk.mediaIds (h.identified.episode i hi)

theorem Ingesting.insertEpisode (hF : ∀ v v', Keeps v v' → F v → F v') (h : Ingesting canonicalUrl F v) (e : EpisodeMedia) :
    Ingesting canonicalUrl F ((IngestWrite.insertEpisode e).apply v) := by
  have hk := keeps_insertEpisode v e
  refine ⟨h.podcast, ⟨fun i hi => ?_, h.identified.strong, h.identified.settled_keeps hk rfl⟩, hF _ _ hk h.fact⟩
  exact hk.mediaIds (h.identified.episode i hi)

theorem takes_ingestEpisode (hF : ∀ v v', Keeps v v' → F v → F v') :
    Takes canonicalUrl (Ingesting canonicalUrl F) (ingestEpisode aliases) fun r v =>
      Ingesting canonicalUrl F v ∧ v.Resolves aliases r := by
  unfold ingestEpisode
  split
  next hempty => exact Takes.pure fun v hv => ⟨hv, List.isEmpty_iff.1 hempty⟩
  refine Takes.bind takes_resolveEpisodeAliases fun r => ?_
  cases r with
  | some m =>
    refine Takes.bind (Takes.of_imp (fun v hv => ⟨hv.1, hv.2 m rfl⟩) (takes_attachEpisodeAliases hF)) fun _ => ?_
    refine Takes.bind Takes.query fun own => Takes.bind Takes.ofExcept fun diagnosticAlias => ?_
    refine Takes.bind (Q := fun _ v => Ingesting canonicalUrl F v ∧ v.Resolves aliases (.some m)) ?_ fun _ => Takes.pure fun _ hv => hv
    refine Takes.write fun v hv _ => ?_
    have hk := keeps_updateProviderId v m diagnosticAlias.value
    exact ⟨hk, hv.1.1.1.updateProviderId hF m _, hv.1.1.2.keeps hk⟩
  | none =>
    refine Takes.bind Takes.ofExcept fun diagnosticAlias => ?_
    refine Takes.bind (Q := fun m v => Ingesting canonicalUrl F v ∧ m ∈ v.mediaIds) ?_ fun m => ?_
    · refine Takes.returning fun v newId hv _ => ⟨keeps_insertEpisode v _, hv.1.1.insertEpisode hF _, ?_⟩
      simp [mediaIds, IngestWrite.apply]
    · exact Takes.bind (takes_attachEpisodeAliases hF) fun _ => Takes.pure fun _ hv => hv

/-- The items of a batch, one after the other: each stays with its episode
while the next ones are ingested. -/
theorem takes_ingestEpisodes (hF : ∀ v v', Keeps v v' → F v → F v') : ∀ {items : List (List EpisodeAlias)},
    Takes canonicalUrl (Ingesting canonicalUrl F) (items.mapM' ingestEpisode) fun rs v =>
      Ingesting canonicalUrl F v ∧ List.Forall₂ v.Resolves items rs := by
  intro items
  induction items generalizing F with
  | nil => exact Takes.pure fun v hv => ⟨hv, .nil⟩
  | cons aliases items ih =>
    refine Takes.bind (takes_ingestEpisode hF) fun r => ?_
    have hboth (v v' : IngestTables) (hk : Keeps v v') (hv : F v ∧ v.Resolves aliases r) : F v' ∧ v'.Resolves aliases r :=
      ⟨hF v v' hk hv.1, hv.2.keeps hk⟩
    refine Takes.bind (Takes.of_imp (fun v hv => ?_) (ih hboth)) fun rs => Takes.pure fun v hv => ?_
    · exact ⟨hv.1.podcast, hv.1.identified, hv.1.fact, hv.2⟩
    · exact ⟨⟨hv.1.podcast, hv.1.identified, hv.1.fact.1⟩, .cons hv.1.fact.2 hv.2⟩

end

end Nexus.Podcasts
