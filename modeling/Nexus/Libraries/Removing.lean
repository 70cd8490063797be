/-
What the commands leave that only take entries away or move them: media goes
out of a library when another one still holds it, a podcast at any time.
-/
import Nexus.Libraries.Filing

namespace Nexus.LibraryEntries
open Relational RowLocks Nexus.Libraries

variable {W : World} {α : Type} {H : Set Row} {s : Entries} {ws : List EntryWrite}

def EntryWrite.IsMove (w : EntryWrite) : Prop := ∃ e n, w = .move e n

theorem normalize_moves {v : Entries} {l : Uuid} : ∀ w ∈ (v.inOrder l).zipIdx.filterMap (fun (e, position) =>
    if e.position ≠ position then some (EntryWrite.move e position) else none), w.IsMove := by
  intro w hw
  obtain ⟨⟨e, n⟩, _, h⟩ := List.mem_filterMap.1 hw
  simp only [Option.ite_none_right_eq_some, Option.some.injEq] at h
  exact ⟨e, n, h.2.symm⟩

theorem wp_normalizePositions {I : Assn Row Entries EntryWrite} {l : Uuid} (hI : EntryStable W I)
    (hmoves : ∀ H s ws ms, I H s ws → (∀ w ∈ ms, EntryWrite.IsMove w) → I H s (ws ++ ms)) (h : I H s ws) :
    EntryWp W (fun _ => I) (normalizePositions l) H s ws := by
  intro t ht _ x
  have ht : I H t ws := hI.others_all ht h
  refine ⟨fun w hw r hr => ?_, fun u hu => hI.others_all hu (hmoves H t ws _ ht normalize_moves)⟩
  obtain ⟨e, n, rfl⟩ := normalize_moves w hw
  exact absurd hr (by simp [entryDiscipline, guard])

/-! ## Podcasts and order -/

/-- All that is written is moves and entries of podcasts taken out. -/
structure Trims (W : World) (_ : Set Row) (s : Entries) (ws : List EntryWrite) : Prop where
  inv : Placed W s
  writes : ∀ w ∈ ws, w.IsMove ∨ ∃ e p, w = .delete e ∧ e.target = .podcast p

theorem Trims.stable : EntryStable W (Trims W) := ⟨fun h hs => ⟨h.1, hs.writes⟩, fun _ hs => ⟨hs.inv, hs.writes⟩⟩

theorem Trims.moves {ms : List EntryWrite} (h : Trims W H s ws) (hms : ∀ w ∈ ms, EntryWrite.IsMove w) :
    Trims W H s (ws ++ ms) := by
  refine ⟨h.inv, fun w hw => ?_⟩
  rcases List.mem_append.1 hw with hw | hw
  · exact h.writes w hw
  · exact .inl (hms w hw)

theorem Trims.commits (h : Trims W H s ws) : Commits entryStorage (entryDiscipline W) () H s ws := by
  have hinsert (e : LibraryEntry) (he : .insert e ∈ ws) : False := by
    rcases h.writes _ he with ⟨e, n, h⟩ | ⟨e, p, h, _⟩ <;> cases h
  refine commits_of h.inv (fun e _ he => (hinsert e he).elim) (fun e _ _ he => (hinsert e he).elim) ?_
  intro e m he ht
  rcases h.writes _ he with ⟨e', n, h⟩ | ⟨e', p, h, hp⟩
  · cases h
  · obtain rfl := EntryWrite.delete.inj h
    simp [ht] at hp

abbrev Trimming (W : World) (p : EntryTx α) : Prop := ∀ H s, Placed W s → EntryWp W (fun _ => Trims W) p H s []

theorem wp_removePodcastFromLibraryInTxn {l p : Uuid} (h : Trims W H s ws) :
    EntryWp W (fun _ => Trims W) (removePodcastFromLibraryInTxn l p) H s ws := by
  refine Wp.exec Trims.stable h fun s _ hs _ => ⟨fun w hw r hr => ?_, ?_⟩
  · obtain ⟨e, he, rfl⟩ := List.mem_map.1 hw
    have ht : e.libraryId = l ∧ e.target = .podcast p := by simpa using (List.mem_filter.1 he).2
    simp [entryDiscipline, guard, ht.2] at hr
  · have hdeleted : Trims W H s (ws ++ ((entryStorage.after ws s).filter fun e =>
        e.libraryId == l && e.target == .podcast p).map .delete) := by
      refine ⟨hs.inv, fun w hw => ?_⟩
      rcases List.mem_append.1 hw with hw | hw
      · exact hs.writes w hw
      · obtain ⟨e, he, rfl⟩ := List.mem_map.1 hw
        have ht : e.libraryId = l ∧ e.target = .podcast p := by simpa using (List.mem_filter.1 he).2
        exact .inr ⟨e, p, rfl, ht.2⟩
    split
    · refine Wp.seq (wp_normalizePositions Trims.stable (fun _ _ _ _ h hms => h.moves hms) hdeleted) fun _ H s ws h => ?_
      exact Wp.done Trims.stable h fun _ h => h
    · exact Wp.done Trims.stable hdeleted fun _ h => h

theorem trims_removePodcastFromLibrary {u l p : Uuid} {key : List Char} :
    Trimming W (removePodcastFromLibrary W u l p key) := by
  intro H s hinv
  have h : Trims W H s [] := ⟨hinv, by simp⟩
  simp only [removePodcastFromLibrary]
  split
  · exact Wp.fail
  · refine Wp.quiet_bind Trims.stable readsOnly_lockRow h fun _ H s _ hs _ => ?_
    refine Wp.quiet_bind Trims.stable quiet_lockLibraryForMember hs fun ctx H s _ hs _ => ?_
    refine Wp.quiet_bind Trims.stable readsOnly_requireMutable hs fun _ H s _ hs _ => ?_
    refine Wp.quiet_bind Trims.stable readsOnly_query hs fun replay H s _ hs _ => ?_
    refine Wp.quiet_bind Trims.stable readsOnly_govern hs fun replay H s _ hs _ => ?_
    cases replay with
    | some outcome => exact Wp.done Trims.stable hs fun _ h => h
    | none =>
      exact Wp.seq (wp_removePodcastFromLibraryInTxn hs) fun _ H s ws h => Wp.done Trims.stable h fun _ h => h

theorem trims_undoPodcastFiling {u l p : Uuid} : Trimming W (undoPodcastFiling W u l p) := by
  intro H s hinv
  have h : Trims W H s [] := ⟨hinv, by simp⟩
  refine Wp.quiet_bind Trims.stable readsOnly_lockRow h fun _ H s _ hs _ => ?_
  refine Wp.quiet_bind Trims.stable quiet_lockLibraryForMember hs fun ctx H s _ hs _ => ?_
  refine Wp.quiet_bind Trims.stable readsOnly_requireMutable hs fun _ H s _ hs _ => ?_
  exact Wp.seq (wp_removePodcastFromLibraryInTxn hs) fun _ H s ws h => Wp.done Trims.stable h fun _ h => h

theorem trims_reorderEntries {u l : Uuid} {ids : List Uuid} : Trimming W (reorderEntries W u l ids) := by
  intro H s hinv
  have h : Trims W H s [] := ⟨hinv, by simp⟩
  refine Wp.quiet_bind Trims.stable quiet_lockLibraryForMember h fun ctx H s _ hs _ => ?_
  refine Wp.quiet_bind Trims.stable readsOnly_requireMutable hs fun _ H s _ hs _ => ?_
  refine Wp.query Trims.stable hs fun s _ hs _ => ?_
  split
  · exact Wp.fail
  · have hmoves (v : Entries) : ∀ w ∈ ids.zipIdx.flatMap (fun p =>
        (v.filter fun e => e.id == p.1 && e.libraryId == l).map fun e => EntryWrite.move e p.2), w.IsMove := by
      intro w hw
      obtain ⟨⟨id, n⟩, _, hw⟩ := List.mem_flatMap.1 hw
      obtain ⟨e, _, rfl⟩ := List.mem_map.1 hw
      exact ⟨e, n, rfl⟩
    refine Wp.exec Trims.stable hs fun s _ hs _ => ⟨fun w hw r hr => ?_, ?_⟩
    · obtain ⟨e, n, rfl⟩ := hmoves _ w hw
      exact absurd hr (by simp [entryDiscipline, guard])
    · split
      · exact Wp.fail
      · exact Wp.done Trims.stable (hs.moves (hmoves _)) fun _ h => h

/-! ## Media -/

/-- The media is locked, another library holds it, and all that is written is
moves and its entry in this one taken out. -/
structure Spares (W : World) (mediaId libraryId : Uuid) (H : Set Row) (s : Entries) (ws : List EntryWrite) : Prop where
  inv : Placed W s
  locked : .media mediaId ∈ H
  spare : ∃ id other, other ≠ libraryId ∧ (id, other, .media mediaId) ∈ s.rows
  writes : ∀ w ∈ ws, w.IsMove ∨ ∃ e, w = .delete e ∧ e.libraryId = libraryId ∧ e.target = .media mediaId

theorem Spares.stable (m l : Uuid) : EntryStable W (Spares W m l) where
  others h hs := by
    obtain ⟨id, other, hne, hrow⟩ := hs.spare
    exact ⟨h.1, hs.locked, ⟨id, other, hne, Elsewhere.row_kept h hrow hs.locked⟩, hs.writes⟩
  locks r hs := ⟨hs.inv, Set.mem_insert_of_mem _ hs.locked, hs.spare, hs.writes⟩

theorem Spares.moves {m l : Uuid} {ms : List EntryWrite} (h : Spares W m l H s ws)
    (hms : ∀ w ∈ ms, EntryWrite.IsMove w) : Spares W m l H s (ws ++ ms) := by
  refine ⟨h.inv, h.locked, h.spare, fun w hw => ?_⟩
  rcases List.mem_append.1 hw with hw | hw
  · exact h.writes w hw
  · exact .inl (hms w hw)

theorem Spares.commits {m l : Uuid} (h : Spares W m l H s ws) : Commits entryStorage (entryDiscipline W) () H s ws := by
  have hinsert (e : LibraryEntry) (he : .insert e ∈ ws) : False := by
    rcases h.writes _ he with ⟨e, n, h⟩ | ⟨e, h, _⟩ <;> cases h
  refine commits_of h.inv (fun e _ he => (hinsert e he).elim) (fun e _ _ he => (hinsert e he).elim) ?_
  intro e m' he ht
  rcases h.writes _ he with ⟨e', n, h⟩ | ⟨e', h', _, ht'⟩
  · cases h
  obtain rfl := EntryWrite.delete.inj h'
  obtain rfl : m' = m := EntryTarget.media.inj (ht.symm.trans ht')
  -- the entry in the other library is none of those taken out
  obtain ⟨id, other, hne, hrow⟩ := h.spare
  rcases mem_rows_after ws hrow with hrow | ⟨x, hx, hxrow⟩
  · exact ⟨other, id, hrow⟩
  · simp only [LibraryEntry.row, Prod.mk.injEq] at hxrow
    rcases h.writes _ hx with ⟨y, n, hy⟩ | ⟨y, hy, hyl, _⟩
    · cases hy
    · obtain rfl := EntryWrite.delete.inj hy
      exact absurd (hxrow.2.1.symm.trans hyl) hne

theorem spare_of_count {m l : Uuid} (hu : entryStorage.unique s = true) (hcount : 2 ≤ s.countEntriesForMedia m) :
    ∃ id other, other ≠ l ∧ (id, other, .media m) ∈ s.rows := by
  by_contra hnone
  have hall (e : LibraryEntry) (he : e ∈ s.filter fun e => e.target == .media m) :
      e ∈ s ∧ e.libraryId = l ∧ e.target = .media m := by
    obtain ⟨he, ht⟩ := List.mem_filter.1 he
    have ht : e.target = .media m := by simpa using ht
    refine ⟨he, ?_, ht⟩
    by_contra hl
    exact hnone ⟨e.id, e.libraryId, hl, Entries.mem_rows.2 ⟨e, he, by simp [LibraryEntry.row, ht]⟩⟩
  have hnodup : (s.filter fun e => e.target == .media m).Nodup := by
    simp only [entryStorage, Bool.and_eq_true, decide_eq_true_eq] at hu
    exact (hu.1.of_map _).filter _
  simp only [Entries.countEntriesForMedia, List.countP_eq_length_filter] at hcount
  cases hf : s.filter fun e => e.target == .media m with
  | nil => simp [hf] at hcount
  | cons a rest =>
    cases rest with
    | nil => simp [hf] at hcount
    | cons b rest =>
      rw [hf] at hall hnodup
      obtain ⟨ha, hal, hat⟩ := hall a (by simp)
      obtain ⟨hb, hbl, hbt⟩ := hall b (by simp)
      have hab : a = b := Entries.row_of_target hu ha hb (hal.trans hbl.symm) (hat.trans hbt.symm)
      simp [hab] at hnodup

/-- Either nothing was written, or another library holds the media. -/
def Unfiles (W : World) (mediaId libraryId : Uuid) : Assn Row Entries EntryWrite := fun H s ws =>
  (Placed W s ∧ ws = []) ∨ Spares W mediaId libraryId H s ws

theorem Unfiles.commits {m l : Uuid} (h : Unfiles W m l H s ws) : Commits entryStorage (entryDiscipline W) () H s ws := by
  rcases h with ⟨hinv, rfl⟩ | h
  · exact commits_of hinv (by simp) (by simp) (by simp)
  · exact h.commits

theorem wp_removeLockedMedia {m l : Uuid} (hinv : Placed W s) (hlocked : .media m ∈ H) :
    EntryWp W (fun _ => Unfiles W m l) (removeLockedMedia W m l) H s [] := by
  have hI : EntryStable W fun H s ws => (Placed W s ∧ ws = []) ∧ .media m ∈ H := placed_stable.and (Stable.held _)
  refine Wp.query hI ⟨⟨hinv, rfl⟩, hlocked⟩ fun s _ hs _ => ?_
  split
  · exact Wp.done hI hs fun _ hs => .inl hs.1
  · refine Wp.quiet_bind hI readsOnly_raiseIfTeardown hs fun _ H s _ hs _ => ?_
    refine Wp.query hI hs fun s _ hs hu => ?_
    split
    · exact Wp.fail
    · split
      · exact Wp.fail
      next hne hge =>
        have hcount : 2 ≤ s.countEntriesForMedia m := by
          simp only [Storage.after_nil] at hne hge
          omega
        have hspare := spare_of_count (l := l) hu hcount
        have hstart : Spares W m l H s [] := ⟨hs.1.1, hs.2, hspare, by simp⟩
        have hstable := Spares.stable (W := W) m l
        refine Wp.exec hstable hstart fun s _ hs _ => ⟨fun w hw r hr => ?_, ?_⟩
        · obtain ⟨e, he, rfl⟩ := List.mem_map.1 hw
          have ht : e.libraryId = l ∧ e.target = .media m := by simpa using (List.mem_filter.1 he).2
          obtain rfl : r = .media m := by simpa [entryDiscipline, guard, ht.2] using hr
          exact hs.locked
        · have hdeleted : Spares W m l H s ([] ++ ((entryStorage.after [] s).filter fun e =>
              e.libraryId == l && e.target == .media m).map .delete) := by
            refine ⟨hs.inv, hs.locked, hs.spare, fun w hw => ?_⟩
            rw [List.nil_append] at hw
            obtain ⟨e, he, rfl⟩ := List.mem_map.1 hw
            have ht : e.libraryId = l ∧ e.target = .media m := by simpa using (List.mem_filter.1 he).2
            exact .inr ⟨e, rfl, ht⟩
          split
          · exact Wp.fail
          · have hnormalized := wp_normalizePositions (l := l) hstable (fun _ _ _ _ h hms => h.moves hms) hdeleted
            exact hnormalized.mono fun _ _ _ _ h => .inr h

theorem wp_lockMediaRows {I : Assn Row Entries EntryWrite} {ids : List Uuid} (hI : EntryStable W I) (h : I H s ws) :
    EntryWp W (fun _ H s ws => I H s ws ∧ ∀ m ∈ ids, .media m ∈ H) (lockMediaRowsInOrder W ids) H s ws := by
  have hheld (m : Uuid) : EntryStable W fun H _ _ => .media m ∈ H := Stable.held _
  have hall (ids : List Uuid) : EntryStable W fun H s ws => I H s ws ∧ ∀ m ∈ ids, .media m ∈ H :=
    hI.and (Stable.all hheld ids)
  have hloop : EntryWp W (fun _ H s ws => I H s ws ∧ ∀ m ∈ sortedSet ids, .media m ∈ H)
      ((sortedSet ids).forM fun id => .lockRow (.media id)) H s ws := by
    refine Wp.forM_each hI hheld _ (fun m _ seen H s ws hs hseen => ?_) h
    exact (Wp.lockRow (hall seen) ⟨hs, hseen⟩).mono fun _ H s ws h => ⟨h.1.1, h.2, h.1.2⟩
  refine Wp.seq hloop fun _ H s ws h => ?_
  refine Wp.done (hall _) h fun s hs => ⟨hs.1, fun m hm => hs.2 m ?_⟩
  simpa [sortedSet] using hm

theorem unfiles_ensureMediaAbsentFromLibrary {u m l : Uuid} {b : Bool} (hinv : Placed W s) :
    EntryWp W (fun _ => Unfiles W m l) (ensureMediaAbsentFromLibrary W u m l b) H s [] := by
  have hplaced := placed_stable (W := W)
  refine Wp.quiet_bind hplaced quiet_libraryForMember ⟨hinv, rfl⟩ fun ctx H s _ hs _ => ?_
  refine Wp.quiet_bind hplaced readsOnly_requireMutable hs fun _ H s _ hs _ => ?_
  refine Wp.query hplaced hs fun s _ hs _ => ?_
  split
  · exact Wp.done hplaced hs fun _ hs => .inl hs
  · refine Wp.seq (wp_lockMediaRows hplaced hs) fun locked H s ws h => ?_
    obtain ⟨⟨hs, rfl⟩, hheld⟩ := h
    have hI : EntryStable W fun H s ws => (Placed W s ∧ ws = []) ∧ .media m ∈ H := hplaced.and (Stable.held _)
    have hI0 : (Placed W s ∧ ([] : List EntryWrite) = []) ∧ .media m ∈ H := ⟨⟨hs, rfl⟩, hheld m (by simp)⟩
    split
    · refine Wp.query hI hI0 fun s _ hs _ => ?_
      split
      · exact Wp.done hI hs fun _ hs => .inl hs.1
      · exact Wp.fail
    · refine Wp.quiet_bind hI quiet_lockLibraryForMember hI0 fun ctx H s _ hs _ => ?_
      refine Wp.quiet_bind hI readsOnly_requireMutable hs fun _ H s _ hs _ => ?_
      exact wp_removeLockedMedia hs.1.1 hs.2

end Nexus.LibraryEntries
