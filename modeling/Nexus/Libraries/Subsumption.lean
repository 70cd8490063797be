/-
A podcast in a library stands for its episodes: over every interleaving of
filing, placing, removing and reordering, no named library holds both.

Every command is shown to commit well (`program_commits`); the rest is the
soundness of reasoning under row locks.
-/
import Nexus.Libraries.Placing

namespace Nexus.LibraryEntries
open Relational RowLocks Transition Nexus.Libraries

variable {W : World} {α : Type} {H : Set Row} {s : Entries} {ws : List EntryWrite}

/-! ## Placing a podcast -/

theorem mem_conflictRows {v : Entries} {p : Uuid} {ids : List Uuid} {e : LibraryEntry} :
    e ∈ v.podcastChildConflictRows W p ids ↔
      e ∈ v ∧ e.libraryId ∈ ids ∧ ∃ m, e.target = .media m ∧ W.parentPodcast m = .some p := by
  simp only [Entries.podcastChildConflictRows, List.mem_filter, Bool.and_eq_true, List.contains_iff_mem]
  cases ht : e.target with
  | media m => simp
  | podcast q => simp

theorem mem_childMediaIds {rows : Entries} {m : Uuid} : m ∈ childMediaIds rows ↔ ∃ e ∈ rows, e.target = .media m := by
  simp only [childMediaIds, sortedSet, List.mem_insertionSort, List.mem_dedup, List.mem_filterMap]
  refine exists_congr fun e => and_congr_right fun _ => ?_
  cases e.target <;> simp

/-- Under the podcast's lock, the conflicts there will be are among those read. -/
structure Watched (W : World) (podcastId : Uuid) (targets : List Uuid) (rows : Entries)
    (H : Set Row) (s : Entries) (ws : List EntryWrite) : Prop where
  placed : Placed W s ∧ ws = []
  podcast : .podcast podcastId ∈ H
  among : ∀ e ∈ s.podcastChildConflictRows W podcastId targets, e.row ∈ rows.rows

theorem Watched.stable {p : Uuid} {targets : List Uuid} {rows : Entries} : EntryStable W (Watched W p targets rows) where
  others h hs := by
    refine ⟨placed_stable.others h hs.placed, hs.podcast, fun e he => ?_⟩
    obtain ⟨hmem, hl, m, ht, hm⟩ := mem_conflictRows.1 he
    have hrow : (e.id, e.libraryId, EntryTarget.media m) ∈ Entries.rows _ :=
      Elsewhere.episode_old h hs.podcast hm (Entries.mem_rows.2 ⟨e, hmem, by simp [LibraryEntry.row, ht]⟩)
    obtain ⟨x, hx, hxe⟩ := Entries.mem_rows.1 hrow
    simp only [LibraryEntry.row, Prod.mk.injEq] at hxe
    have hconflict : x ∈ Entries.podcastChildConflictRows W _ p targets :=
      mem_conflictRows.2 ⟨hx, hxe.2.1 ▸ hl, m, hxe.2.2, hm⟩
    have heq : e.row = x.row := by simp [LibraryEntry.row, hxe, ht]
    exact heq ▸ hs.among x hconflict
  locks _ hs := ⟨hs.placed, Set.mem_insert_of_mem _ hs.podcast, hs.among⟩

/-- A replacement was written to its end. -/
def Settled (W : World) : Assn Row Entries EntryWrite := fun H s ws => ∃ R : Replacement W, R.Replaced H s ws

theorem Settled.stable : EntryStable W (Settled W) where
  others h := by
    rintro ⟨R, hs⟩
    exact ⟨R, R.replaced_stable.others h hs⟩
  locks r := by
    rintro ⟨R, hs⟩
    exact ⟨R, R.replaced_stable.locks r hs⟩

/-- The conflicts read again, with the rows they need locked, make a
replacement ready to be written. -/
theorem Watched.putting {p d : Uuid} {targets : List Uuid} {rows : Entries} (h : Watched W p targets rows H s [])
    (hnamed : ∀ l ∈ targets, W.isDefault l = false) (hd : W.isDefault d = true)
    (hrows : ∀ e ∈ rows, ∃ m, e.target = .media m ∧ W.parentPodcast m = .some p)
    (hmedia : ∀ m ∈ childMediaIds rows, .media m ∈ H) :
    ∃ R : Replacement W, R.podcastId = p ∧ R.defaultLibraryId = d ∧ R.targets = targets ∧
      R.mediaIds = childMediaIds rows ∧ R.conflicts = s.podcastChildConflictRows W p targets ∧ R.Putting H s [] := by
  have hchildren : ∀ m ∈ childMediaIds rows, W.parentPodcast m = .some p := by
    intro m hm
    obtain ⟨e, he, ht⟩ := mem_childMediaIds.1 hm
    obtain ⟨m', ht', hp⟩ := hrows e he
    obtain rfl : m = m' := EntryTarget.media.inj (ht.symm.trans ht')
    exact hp
  have hreplaced : ∀ e ∈ s.podcastChildConflictRows W p targets,
      e.libraryId ∈ targets ∧ ∃ m ∈ childMediaIds rows, e.target = .media m := by
    intro e he
    obtain ⟨_, hl, m, ht, _⟩ := mem_conflictRows.1 he
    obtain ⟨x, hx, hxe⟩ := Entries.mem_rows.1 (h.among e he)
    simp only [LibraryEntry.row, Prod.mk.injEq] at hxe
    exact ⟨hl, m, mem_childMediaIds.2 ⟨x, hx, hxe.2.2.trans ht⟩, ht⟩
  let R : Replacement W := ⟨p, d, targets, childMediaIds rows, s.podcastChildConflictRows W p targets,
    hnamed, hd, hchildren, hreplaced⟩
  refine ⟨R, rfl, rfl, rfl, rfl, rfl, ⟨h.placed.1, h.podcast, hmedia, ?_⟩, ?_, by simp⟩
  · intro id l m hl hm hrow
    obtain ⟨e, he, hek⟩ := Entries.mem_rows.1 hrow
    simp only [LibraryEntry.row, Prod.mk.injEq] at hek
    refine ⟨e, mem_conflictRows.2 ⟨he, hek.2.1 ▸ hl, m, hek.2.2, hm⟩, ?_⟩
    simp [LibraryEntry.row, hek]
  · exact fun e he => Entries.mem_rows.2 ⟨e, (mem_conflictRows.1 he).1, rfl⟩

theorem settles_placePodcastInNamedLibraries {u p : Uuid} {ids : List Uuid} {confirmation : Option (List Char)}
    (hinv : Placed W s) :
    EntryWp W (fun _ => Settled W) (placePodcastInNamedLibraries W u p ids confirmation) H s [] := by
  refine Wp.quiet_bind placed_stable quiet_resolve ⟨hinv, rfl⟩ fun targets H s _ hs hnamed => ?_
  refine Wp.seq (Wp.lockRow placed_stable hs) fun _ H s ws h => ?_
  obtain ⟨⟨hs, rfl⟩, hpodcast⟩ := h
  split
  · exact Wp.fail
  have hI : EntryStable W fun H s ws => (Placed W s ∧ ws = []) ∧ .podcast p ∈ H := placed_stable.and (Stable.held _)
  refine Wp.query hI ⟨⟨hs, rfl⟩, hpodcast⟩ fun s _ hs _ => ?_
  -- the conflicts read here are all there will be
  generalize hrows : (entryStorage.after [] s).podcastChildConflictRows W p targets = rows
  have hchild : ∀ e ∈ rows, ∃ m, e.target = .media m ∧ W.parentPodcast m = .some p := by
    intro e he
    rw [← hrows] at he
    exact (mem_conflictRows.1 he).2.2
  have hwatched : Watched W p targets rows H s [] :=
    ⟨hs.1, hs.2, fun e he => Entries.mem_rows.2 ⟨e, hrows ▸ he, rfl⟩⟩
  refine Wp.seq (wp_lockMediaRows Watched.stable hwatched) fun locked H s ws h => ?_
  obtain rfl := h.1.placed.2
  split
  · exact Wp.fail
  have hheld : EntryStable W fun H _ _ => ∀ m ∈ childMediaIds rows, .media m ∈ H :=
    Stable.all (J := fun m H _ _ => Row.media m ∈ H) (fun _ => Stable.held _) _
  have hI : EntryStable W fun H s ws => Watched W p targets rows H s ws ∧ ∀ m ∈ childMediaIds rows, .media m ∈ H :=
    Watched.stable.and hheld
  refine Wp.quiet_bind hI quiet_defaultLibraryId h fun d H s _ hs hd => ?_
  refine Wp.quiet_bind hI readsOnly_lockLibraryRows hs fun lockedLibraries H s _ hs _ => ?_
  split
  · exact Wp.fail
  have hcontexts : ReadsOnly (targets.mapM' fun id => libraryForMember W u id) :=
    (Quiet.mapM' fun _ _ => quiet_libraryForMember.mono fun _ _ => trivial).mono fun _ _ => trivial
  refine Wp.quiet_bind hI hcontexts hs fun contexts H s _ hs _ => ?_
  refine Wp.quiet_bind hI (Quiet.forM fun _ _ => readsOnly_requireMutable) hs fun _ H s _ hs _ => ?_
  refine Wp.query hI hs fun s _ hs _ => ?_
  split
  · exact Wp.fail
  dsimp only
  split
  · exact Wp.fail
  obtain ⟨R, rfl, rfl, rfl, hmedia, hconflicts, hputting⟩ := hs.1.putting hnamed hd hchild hs.2
  rw [← hmedia, Storage.after_nil, ← hconflicts]
  exact (Replacement.wp_replaceEpisodes hputting).mono fun _ H s ws h => ⟨R, h⟩

/-! ## Every command -/

theorem settles_commits {p : EntryTx α} (h : ∀ H, EntryWp W (fun _ => Settled W) p H s []) :
    EntryWp W (Commits entryStorage (entryDiscipline W)) (answered p) H s [] :=
  Wp.seq (h H) fun _ _ _ _ hs => Wp.done Settled.stable hs fun _ hs => by
    obtain ⟨R, hs⟩ := hs
    exact hs.commits

theorem trimming_commits {p : EntryTx α} (h : Trimming W p) (hinv : Placed W s) :
    EntryWp W (Commits entryStorage (entryDiscipline W)) (answered p) H s [] :=
  Wp.seq (h H s hinv) fun _ _ _ _ hs => Wp.done Trims.stable hs fun _ hs => hs.commits

theorem settles_or_reads_placeSubscribed {u l p : Uuid} {key : List Char} (hinv : Placed W s) :
    EntryWp W (Commits entryStorage (entryDiscipline W)) (answered (placeSubscribedPodcastOnce W u l p key)) H s [] := by
  have hnone : EntryStable W fun _ s ws => Placed W s ∧ ws = [] := placed_stable
  have hcommits : EntryStable W fun H s ws => (Placed W s ∧ ws = []) ∨ Settled W H s ws :=
    ⟨fun h hs => hs.imp (hnone.others h) (Settled.stable.others h), fun r hs => hs.imp_right (Settled.stable.locks r)⟩
  have hwp : EntryWp W (fun _ H s ws => (Placed W s ∧ ws = []) ∨ Settled W H s ws)
      (placeSubscribedPodcastOnce W u l p key) H s [] := by
    simp only [placeSubscribedPodcastOnce]
    split
    · exact Wp.fail
    · refine Wp.quiet_bind hnone readsOnly_query ⟨hinv, rfl⟩ fun replay H s _ hs _ => ?_
      refine Wp.quiet_bind hnone readsOnly_govern hs fun replay H s _ hs _ => ?_
      cases replay with
      | some outcome => exact Wp.done hnone hs fun _ hs => .inl hs
      | none =>
        refine Wp.quiet_bind hnone readsOnly_query hs fun subscribed H s _ hs _ => ?_
        split
        · exact Wp.fail
        · refine Wp.seq (settles_placePodcastInNamedLibraries hs.1) fun _ H s ws hs => ?_
          exact Wp.done Settled.stable hs fun _ hs => .inr hs
  refine Wp.seq hwp fun _ H s ws hs => Wp.done hcommits hs fun s hs => ?_
  rcases hs with ⟨hinv, rfl⟩ | ⟨R, hs⟩
  · exact commits_of hinv (by simp) (by simp) (by simp)
  · exact hs.commits

/-- **Every command commits well, whatever runs beside it.** -/
theorem program_commits (c : EntryCommand) (H : Set Row) (s : Entries) (hinv : Placed W s) :
    EntryWp W (Commits entryStorage (entryDiscipline W)) (program W c) H s [] := by
  cases c with
  | ensureMediaInLibrary u l m => exact files_ensureMediaInLibrary.commits hinv
  | ensureMediaSavedInNexus u m => exact files_ensureMediaSavedInNexus.commits hinv
  | ensureMediaInLibraries u m ids =>
    exact (files_ensureMediaInLibraries H s hinv).mono fun _ _ _ _ h => h.commits
  | assignLibrariesForMedia u m ids =>
    exact (files_assignLibrariesForMedia H s hinv).mono fun _ _ _ _ h => h.commits
  | ensureSubscriptionEpisodeDefault u p m => exact files_ensureSubscriptionEpisodeDefault.commits hinv
  | ensureMediaAbsentFromLibrary u m l =>
    exact (unfiles_ensureMediaAbsentFromLibrary hinv).mono fun _ _ _ _ h => h.commits
  | undoMediaFiling u m l => exact (unfiles_ensureMediaAbsentFromLibrary hinv).mono fun _ _ _ _ h => h.commits
  | ensureMediaAbsentFromSavedInNexus u m =>
    refine Wp.quiet_bind placed_stable quiet_defaultLibraryId ⟨hinv, rfl⟩ fun l H s _ hs _ => ?_
    exact (unfiles_ensureMediaAbsentFromLibrary hs.1).mono fun _ _ _ _ h => h.commits
  | placePodcastInNamedLibraries u p ids confirmation =>
    exact settles_commits fun H => settles_placePodcastInNamedLibraries hinv
  | placeSubscribedPodcast u l p key => exact settles_or_reads_placeSubscribed hinv
  | removePodcastFromLibrary u l p key => exact trimming_commits trims_removePodcastFromLibrary hinv
  | undoPodcastFiling u l p => exact trimming_commits trims_undoPodcastFiling hinv
  | reorderEntries u l ids => exact (trims_reorderEntries H s hinv).mono fun _ _ _ _ h => h.commits

/-! ## Every run -/

/-- The commands in any number and any order of steps, from tables that hold
what they are to keep. -/
def entrySystem (W : World) : System (Cluster Row Entries Env EntryWrite EntryFailure) (Event EntryCommand Env) :=
  Cluster.system entryStorage (entryDiscipline W) (program W)

theorem placed_of_reachable {S : Cluster Row Entries Env EntryWrite EntryFailure} (h : (entrySystem W).Reachable S) :
    Placed W S.tables :=
  Cluster.reachable_inv StillReferenced.refl program_commits h

/-- **A podcast placement subsumes its episodes.** In every state a run
reaches, no named library holds a podcast and one of its episodes, a library
has one entry of a target and one at a position, and media with an entry then
has one in every later state. -/
theorem podcast_subsumes {S : Cluster Row Entries Env EntryWrite EntryFailure} (h : (entrySystem W).Reachable S) :
    (∀ libraryId mediaId podcastId, W.isDefault libraryId = false → W.parentPodcast mediaId = .some podcastId →
      ¬ (S.tables.Holds libraryId (.podcast podcastId) ∧ S.tables.Holds libraryId (.media mediaId))) ∧
    (∀ a ∈ S.tables, ∀ b ∈ S.tables, a.libraryId = b.libraryId →
      a.target = b.target ∨ a.position = b.position → a = b) ∧
    (∀ tr, (entrySystem W).Run S tr → ∀ mediaId, S.tables.Referenced mediaId → (last S tr).tables.Referenced mediaId) := by
  have hplaced := placed_of_reachable h
  refine ⟨fun l m p hl hm hboth => hplaced.exclusive l m p hl hm hboth.1 hboth.2, ?_, fun tr hr => ?_⟩
  · intro a ha b hb hl hsame
    rcases hsame with ht | hp
    · exact Entries.row_of_target hplaced.unique ha hb hl ht
    · have hpositions := hplaced.positions
      simp only [entryStorage, decide_eq_true_eq] at hpositions
      exact List.inj_on_of_nodup_map hpositions ha hb (by simp [hl, hp])
  · exact Cluster.run_keeps StillReferenced.refl program_commits StillReferenced.trans h hr

/-! ## A podcast placed while its episode is filed -/

/-- User 1 has a default library and a named one that holds the episode 3 of
podcast 5. -/
def sharedWorld : World where
  governance := {
    users := .empty
    libraries := ⟨⟨[⟨10, 1, "My Library".toList, .none, true, .none, 0, 0⟩,
      ⟨20, 1, "Shared".toList, .none, false, .none, 0, 0⟩], by decide +kernel⟩, by decide +kernel, by decide +kernel⟩
    memberships := .empty
    invitations := .empty }
  media := [3]
  podcasts := [5]
  episodes := ⟨[⟨3, 5⟩], by decide +kernel⟩
  fingerprint _ _ _ _ := "seen".toList

def sharedEnv (newId : Uuid) : Env where
  memberships := ⟨[⟨10, 1, .admin, 0⟩, ⟨20, 1, .admin, 0⟩], by decide +kernel⟩
  invitations := .empty
  canRead _ _ := true
  canRestore _ _ := false
  tearingDown _ := false
  canShare _ := true
  subscribed _ _ := true
  filingReplay _ _ _ _ := .ok .none
  removalReplay _ _ _ _ := .ok .none
  newId := newId
  now := 0

def oneEpisode : Cluster Row Entries Env EntryWrite EntryFailure where
  tables := [⟨100, 20, .media 3, 0, 0⟩]
  holder _ := .none
  running _ := .none

/-- The placement is confirmed, and the filing waits for the podcast's lock. -/
def placingBesideFiling : List (Event EntryCommand Env) :=
  let e := sharedEnv 0
  [.start 0 (.placePodcastInNamedLibraries 1 5 [20] (.some "seen".toList)), .start 1 (.ensureMediaInLibrary 1 20 3),
    .exec 1 e, .exec 0 e, .lock 0, .exec 0 e, .lock 0, .lock 0, .lock 0] ++
  List.replicate 7 (.exec 0 (sharedEnv 101)) ++ [.lock 0, .exec 0 e, .lock 0] ++
  List.replicate 5 (.exec 0 (sharedEnv 102)) ++ [.commit 0, .lock 1, .lock 1, .exec 1 e, .exec 1 e, .lock 1, .exec 1 e,
    .exec 1 e, .commit 1]

def placedBesideFiling : Cluster Row Entries Env EntryWrite EntryFailure :=
  last oneEpisode (replay (Cluster.next entryStorage (program sharedWorld)) oneEpisode placingBesideFiling)

theorem idle_oneEpisode : Cluster.Idle (entryDiscipline sharedWorld) oneEpisode where
  inv := by
    refine ⟨by decide +kernel, by decide +kernel, fun l m p _ _ hp => ?_⟩
    simp [Entries.Holds, Entries.rows, oneEpisode, LibraryEntry.row] at hp
  holder _ := rfl
  running _ := rfl

theorem reachable_placedBesideFiling : (entrySystem sharedWorld).Reachable placedBesideFiling :=
  System.reachable_replay placingBesideFiling idle_oneEpisode

/-- The episode moved to the default library, and was not filed again. -/
theorem podcast_subsumes_placing :
    placedBesideFiling.tables = [⟨101, 20, .podcast 5, 0, 0⟩, ⟨102, 10, .media 3, 0, 0⟩] ∧
      ¬ (placedBesideFiling.tables.Holds 20 (.podcast 5) ∧ placedBesideFiling.tables.Holds 20 (.media 3)) :=
  ⟨by decide +kernel,
    (podcast_subsumes reachable_placedBesideFiling).1 20 3 5 (by decide +kernel) (by decide +kernel)⟩

end Nexus.LibraryEntries
