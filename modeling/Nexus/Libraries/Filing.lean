/-
What the filing commands leave: media goes into a library under the lock of its
podcast, and into a named one only when the podcast is not there.

`Filing` is the assertion that carries each of them from the podcast's lock to
the commit (`Filing.commits`).
-/
import Nexus.Libraries.EntryChecks

namespace Nexus.LibraryEntries
open Relational RowLocks Nexus.Libraries

variable {W : World} {α : Type} {H : Set Row} {s : Entries} {ws : List EntryWrite}

/-- The media may go into the library: a default one, or one without its podcast. -/
def Admits (W : World) (mediaId libraryId : Uuid) (s : Entries) : Prop :=
  W.isDefault libraryId = true ∨ ∀ p, W.parentPodcast mediaId = .some p → ¬ s.Holds libraryId (.podcast p)

/-- The media's podcast is locked, and all that is written is entries of the
media where it may go. -/
structure Filing (W : World) (mediaId : Uuid) (H : Set Row) (s : Entries) (ws : List EntryWrite) : Prop where
  inv : Placed W s
  parent : ∀ p, W.parentPodcast mediaId = .some p → .podcast p ∈ H
  writes : ∀ w ∈ ws, ∃ e, w = .insert e ∧ e.target = .media mediaId ∧ Admits W mediaId e.libraryId s

theorem Admits.others {m l : Uuid} {s' : Entries} (hH : ∀ p, W.parentPodcast m = .some p → .podcast p ∈ H)
    (h : Elsewhere entryStorage (entryDiscipline W) H s s') (hs : Admits W m l s) : Admits W m l s' :=
  hs.imp_right fun hno p hp hl => hno p hp (Elsewhere.podcast_old h (hH p hp) hl)

theorem Filing.stable (m : Uuid) : EntryStable W (Filing W m) where
  others h hs := by
    refine ⟨h.1, hs.parent, fun w hw => ?_⟩
    obtain ⟨e, rfl, ht, ha⟩ := hs.writes w hw
    exact ⟨e, rfl, ht, ha.others hs.parent h⟩
  locks _ hs := ⟨hs.inv, fun p hp => Set.mem_insert_of_mem _ (hs.parent p hp), hs.writes⟩

theorem Filing.stable_admits (m l : Uuid) : EntryStable W fun H s ws => Filing W m H s ws ∧ Admits W m l s where
  others h hs := ⟨(Filing.stable m).others h hs.1, hs.2.others hs.1.parent h⟩
  locks r hs := ⟨(Filing.stable m).locks r hs.1, hs.2⟩

theorem Filing.no_delete {m : Uuid} (h : Filing W m H s ws) (e : LibraryEntry) : .delete e ∉ ws := by
  intro he
  obtain ⟨e', h', _⟩ := h.writes _ he
  cases h'

/-- **A filing commits well.** -/
theorem Filing.commits {m : Uuid} (h : Filing W m H s ws) : Commits entryStorage (entryDiscipline W) () H s ws := by
  refine commits_of h.inv ?_ ?_ ?_
  · intro e m' he ht
    obtain ⟨e', he', ht', ha⟩ := h.writes _ he
    obtain rfl := EntryWrite.insert.inj he'
    obtain rfl : m' = m := EntryTarget.media.inj (ht.symm.trans ht')
    refine ha.imp_right fun hno p hp hl => ?_
    -- nothing written is an entry of a podcast
    rcases holds_of_after hl with hl | ⟨e'', he'', _, hp'⟩
    · exact hno p hp hl
    · obtain ⟨x, hx, hxt, _⟩ := h.writes _ he''
      obtain rfl := EntryWrite.insert.inj hx
      simp [hxt] at hp'
  · intro e p m' he ht
    obtain ⟨e', he', ht', _⟩ := h.writes _ he
    obtain rfl := EntryWrite.insert.inj he'
    simp [ht] at ht'
  · intro e m' he
    exact absurd he (h.no_delete e)

theorem filing_start {m : Uuid} (hinv : Placed W s) (hp : ∀ p, W.parentPodcast m = .some p → .podcast p ∈ H) :
    Filing W m H s [] := ⟨hinv, hp, by simp⟩

theorem wp_lockParentPodcast {m : Uuid} (hinv : Placed W s) :
    EntryWp W (fun p H s ws => Filing W m H s ws ∧ p = W.parentPodcast m) (lockParentPodcastForMedia W m) H s [] := by
  have hplaced : EntryStable W fun _ s ws => Placed W s ∧ ws = [] := Stable.inv.and Stable.writes
  simp only [lockParentPodcastForMedia]
  cases hp : W.parentPodcast m with
  | none =>
    refine Wp.done hplaced ⟨hinv, rfl⟩ fun s hs => ⟨filing_start hs.1 ?_, rfl⟩
    intro p h
    simp [hp] at h
  | some p =>
    refine Wp.seq (Wp.lockRow hplaced ⟨hinv, rfl⟩) fun _ H s ws h => ?_
    obtain ⟨⟨hs, rfl⟩, hheld⟩ := h
    have hstart (s : Entries) (hs : Placed W s) : Filing W m H s [] := by
      refine filing_start hs fun q hq => ?_
      obtain rfl : p = q := Option.some.inj (hp.symm.trans hq)
      exact hheld
    split
    · exact Wp.done hplaced ⟨hs, rfl⟩ fun s hs => ⟨hstart s hs.1, rfl⟩
    · exact Wp.fail

theorem wp_ensureEntry_media {m l : Uuid} (h : Filing W m H s ws) (ha : Admits W m l s) :
    EntryWp W (fun _ => Filing W m) (ensureEntry W l (.media m)) H s ws := by
  have hstable := Filing.stable_admits (W := W) m l
  refine Wp.quiet_bind hstable readsOnly_raiseIfTeardown ⟨h, ha⟩ fun _ H s _ hs _ => ?_
  refine Wp.quiet_bind hstable readsOnly_lockRow hs fun _ H s _ hs _ => ?_
  refine Wp.query hstable hs fun s _ hs _ => ?_
  split
  · exact Wp.done hstable hs fun _ hs => hs.1
  · refine Wp.query hstable hs fun s _ hs _ => ?_
    simp only [insertEntry]
    split
    · refine Wp.write hstable hs fun s env hs _ => ⟨?_, ?_⟩
      · intro w hw r hr
        obtain rfl := List.mem_singleton.1 hw
        obtain ⟨p, hp, rfl⟩ : ∃ p, W.parentPodcast m = .some p ∧ r = .podcast p := hr
        exact hs.1.parent p hp
      · refine Wp.done (Filing.stable m) ⟨hs.1.inv, hs.1.parent, fun w hw => ?_⟩ fun _ hs => hs
        rcases List.mem_append.1 hw with hw | hw
        · exact hs.1.writes w hw
        · exact ⟨_, List.mem_singleton.1 hw, rfl, hs.2⟩
    · exact Wp.fail

theorem wp_heldThroughPodcast {β : Type} {m l : Uuid} {Q : β → Assn Row Entries EntryWrite} {f : Bool → EntryTx β}
    (h : Filing W m H s ws) (htrue : ∀ s, Filing W m H s ws → EntryWp W Q (f true) H s ws)
    (hfalse : ∀ s, Filing W m H s ws → Admits W m l s → EntryWp W Q (f false) H s ws) :
    EntryWp W Q (heldThroughPodcast (W.parentPodcast m) l >>= f) H s ws := by
  cases hp : W.parentPodcast m with
  | none => exact hfalse s h (.inr fun p hp' => by simp [hp] at hp')
  | some p =>
    refine Wp.query (Filing.stable m) h fun s _ hs _ => ?_
    cases hx : (entryStorage.after ws s).entryExists l (.podcast p) with
    | true => exact htrue s hs
    | false =>
      refine hfalse s hs (.inr fun q hq hl => ?_)
      obtain rfl : p = q := Option.some.inj (hp.symm.trans hq)
      have hview := Entries.entryExists_iff.2 (holds_after hs.no_delete hl)
      simp [hview] at hx

/-! ## The commands -/

/-- What every filing command establishes for its media. -/
abbrev Files (W : World) (mediaId : Uuid) (p : EntryTx α) : Prop :=
  ∀ H s, Placed W s → EntryWp W (fun _ => Filing W mediaId) p H s []

theorem placed_stable : EntryStable W fun _ s ws => Placed W s ∧ ws = [] := Stable.inv.and Stable.writes

theorem Files.after_checks {β : Type} {m : Uuid} {P : β → Prop} {p : EntryTx β} {f : β → EntryTx α} (hp : Quiet P p)
    (hf : ∀ b, P b → Files W m (f b)) : Files W m (p >>= f) := by
  intro H s hinv
  exact Wp.quiet_bind placed_stable hp ⟨hinv, rfl⟩ fun b H s _ hs hb => hf b hb H s hs.1

theorem files_raise {m : Uuid} {code message} : Files W m (raise code message : EntryTx α) := fun _ _ _ => Wp.fail

theorem wp_fileDirectly {u m : Uuid} {ctx : LibraryMembershipContext} (h : Filing W m H s ws) (ha : Admits W m ctx.id s) :
    EntryWp W (fun _ => Filing W m) (fileDirectly W u m ctx) H s ws := by
  have hstable := Filing.stable_admits (W := W) m ctx.id
  refine Wp.quiet_bind hstable (readsOnly_ite readsOnly_pure readsOnly_query) ⟨h, ha⟩ fun _ H s _ hs _ => ?_
  refine Wp.quiet_bind hstable (readsOnly_ite readsOnly_pure readsOnly_requireShare) hs fun _ H s _ hs _ => ?_
  refine Wp.seq (wp_ensureEntry_media hs.1 hs.2) fun added H s ws hs => ?_
  cases added with
  | true => exact Wp.done (Filing.stable m) hs fun _ hs => hs
  | false => exact Wp.done (Filing.stable m) hs fun _ hs => hs

theorem wp_fileMedia {u m : Uuid} {ctx : LibraryMembershipContext} (hctx : W.isDefault ctx.id = ctx.isDefault)
    (h : Filing W m H s ws) : EntryWp W (fun _ => Filing W m) (fileMedia W u m (W.parentPodcast m) ctx) H s ws := by
  simp only [fileMedia]
  cases hd : ctx.isDefault with
  | true => exact wp_fileDirectly h (.inl (hctx.trans hd))
  | false =>
    refine wp_heldThroughPodcast h (fun s hs => ?_) fun s hs ha => wp_fileDirectly hs ha
    exact Wp.done (Filing.stable m) hs fun _ hs => hs

theorem files_ensureMediaInLibrary {u l m : Uuid} : Files W m (ensureMediaInLibrary W u l m) := by
  simp only [ensureMediaInLibrary]
  split
  · exact files_raise
  · refine Files.after_checks readsOnly_query fun _ _ => ?_
    split
    · exact files_raise
    · intro H s hinv
      refine Wp.seq (wp_lockParentPodcast hinv) fun parent H s ws h => ?_
      obtain ⟨hs, rfl⟩ := h
      refine Wp.quiet_bind (Filing.stable m) readsOnly_lockAuthorized hs fun _ H s _ hs _ => ?_
      refine Wp.quiet_bind (Filing.stable m) quiet_lockLibraryForMember hs fun ctx H s _ hs hctx => ?_
      refine Wp.quiet_bind (Filing.stable m) readsOnly_govern hs fun _ H s _ hs _ => ?_
      refine Wp.quiet_bind (Filing.stable m) readsOnly_govern hs fun _ H s _ hs _ => ?_
      exact wp_fileMedia (hctx.1 ▸ hctx.2) hs

theorem files_ensureMediaSavedInNexus {u m : Uuid} : Files W m (ensureMediaSavedInNexus W u m) :=
  Files.after_checks quiet_defaultLibraryId fun _ _ => files_ensureMediaInLibrary

theorem wp_ensureMediaInDefaultLibrary {u m : Uuid} (h : Filing W m H s ws) :
    EntryWp W (fun _ => Filing W m) (ensureMediaInDefaultLibrary W u m) H s ws :=
  Wp.quiet_bind (Filing.stable m) quiet_defaultLibraryId h fun _ _ _ _ hs hd => wp_ensureEntry_media hs (.inl hd)

theorem readsOnly_heldThroughPodcast {p : Option Uuid} {l : Uuid} : ReadsOnly (heldThroughPodcast p l) := by
  cases p with
  | none => exact readsOnly_pure
  | some p => exact readsOnly_query

theorem wp_addMediaToResolvedLibraries {u m : Uuid} {targets : List Uuid} (h : Filing W m H s ws) :
    EntryWp W (fun _ => Filing W m) (addMediaToResolvedLibraries W u m targets (W.parentPodcast m)) H s ws := by
  simp only [addMediaToResolvedLibraries]
  split
  · exact Wp.done (Filing.stable m) h fun _ hs => hs
  · refine Wp.quiet_bind (Filing.stable m) readsOnly_raiseIfTeardown h fun _ H s _ hs _ => ?_
    refine Wp.quiet_bind (Filing.stable m) (Quiet.mapM' fun _ _ => quiet_lockLibraryForMember.mono fun _ _ => trivial) hs
      fun contexts H s _ hs _ => ?_
    refine Wp.quiet_bind (Filing.stable m) (Quiet.forM fun _ _ => ?_) hs fun _ H s _ hs _ => ?_
    · exact readsOnly_govern.bind fun _ => readsOnly_govern.bind fun _ => readsOnly_govern
    refine Wp.quiet_bind (Filing.stable m) (Quiet.forM fun _ _ => ?_) hs fun _ H s _ hs _ => ?_
    · refine readsOnly_heldThroughPodcast.bind fun _ => readsOnly_ite readsOnly_pure ?_
      exact readsOnly_query.bind fun _ => readsOnly_ite readsOnly_pure readsOnly_requireShare
    -- each destination is read again before it is filed in
    refine Wp.forM (Filing.stable m) (fun l _ H s ws hs => ?_) hs
    refine wp_heldThroughPodcast hs (fun s hs => ?_) fun s hs ha => ?_
    · exact Wp.done (Filing.stable m) hs fun _ hs => hs
    · exact Wp.seq (wp_ensureEntry_media hs ha) fun _ H s ws hs => Wp.done (Filing.stable m) hs fun _ hs => hs

theorem files_ensureMediaInLibraries {u m : Uuid} {ids : List Uuid} : Files W m (ensureMediaInLibraries W u m ids) := by
  simp only [ensureMediaInLibraries]
  split
  · exact files_raise
  · refine Files.after_checks readsOnly_query fun _ _ => ?_
    split
    · exact files_raise
    · intro H s hinv
      refine Wp.seq (wp_lockParentPodcast hinv) fun parent H s ws h => ?_
      obtain ⟨hs, rfl⟩ := h
      refine Wp.quiet_bind (Filing.stable m) readsOnly_lockAuthorized hs fun _ H s _ hs _ => ?_
      refine Wp.quiet_bind (Filing.stable m) quiet_resolve hs fun _ H s _ hs _ => ?_
      exact wp_addMediaToResolvedLibraries hs

theorem files_assignLibrariesForMedia {u m : Uuid} {ids : List Uuid} : Files W m (assignLibrariesForMedia W u m ids) := by
  refine Files.after_checks quiet_resolve fun _ _ => ?_
  refine Files.after_checks quiet_defaultLibraryId fun _ _ H s hinv => ?_
  refine Wp.seq (wp_lockParentPodcast hinv) fun parent H s ws h => ?_
  obtain ⟨hs, rfl⟩ := h
  refine Wp.quiet_bind (Filing.stable m) readsOnly_raiseIfTeardown hs fun _ H s _ hs _ => ?_
  refine Wp.quiet_bind (Filing.stable m) readsOnly_lockLibraryRows hs fun _ H s _ hs _ => ?_
  exact Wp.seq (wp_ensureMediaInDefaultLibrary hs) fun _ H s ws hs => wp_addMediaToResolvedLibraries hs

theorem files_ensureSubscriptionEpisodeDefault {u p m : Uuid} :
    Files W m (ensureSubscriptionEpisodeDefault W u p m) := by
  intro H s hinv
  refine Wp.seq (wp_lockParentPodcast hinv) fun parent H s ws h => ?_
  split
  · exact Wp.fail
  · refine Wp.quiet_bind (Filing.stable m) readsOnly_lockMediaRows h.1 fun _ H s _ hs _ => ?_
    split
    · exact Wp.fail
    · refine Wp.quiet_bind (Filing.stable m) quiet_defaultLibraryId hs fun _ H s _ hs _ => ?_
      refine Wp.quiet_bind (Filing.stable m) readsOnly_raiseIfTeardown hs fun _ H s _ hs _ => ?_
      refine Wp.quiet_bind (Filing.stable m) readsOnly_lockLibraryRows hs fun _ H s _ hs _ => ?_
      exact wp_ensureMediaInDefaultLibrary hs

/-- **A filing command commits well.** -/
theorem Files.commits {m : Uuid} {p : EntryTx α} (h : Files W m p) (hinv : Placed W s) :
    EntryWp W (Commits entryStorage (entryDiscipline W)) (answered p) H s [] :=
  Wp.seq (h H s hinv) fun _ _ _ _ hs => Wp.done (Filing.stable m) hs fun _ hs => hs.commits

end Nexus.LibraryEntries
