/-
What placing a podcast leaves: no episode of it beside it, and every episode it
replaced in the default library.

The podcast's lock keeps new episodes out from the first read of the conflicts
to the commit (`Replacement.current`), and the locks of the media keep the
conflicting entries and the default ones in (`Replacement.present`,
`Replacement.Replaced.kept`).
-/
import Nexus.Libraries.Removing

namespace Nexus.LibraryEntries
open Relational RowLocks Nexus.Libraries

variable {W : World} {α : Type} {H : Set Row} {s : Entries} {ws : List EntryWrite}

/-! ## Inserts and deletes in one list of writes -/

theorem mem_rows_of_insert {e : LibraryEntry} : ∀ {ws : List EntryWrite} {v : Entries}, .insert e ∈ ws →
    (∀ x, .delete x ∈ ws → x.row ≠ e.row) → e.row ∈ (entryStorage.after ws v).rows
  | w :: ws, v, he, hkeep => by
    rw [after_cons]
    have hrest : ∀ x, .delete x ∈ ws → x.row ≠ e.row := fun x hx => hkeep x (List.mem_cons_of_mem w hx)
    rcases List.mem_cons.1 he with rfl | he
    · have hin : e.row ∈ (EntryWrite.insert e |>.apply v).rows := mem_rows_insert.2 (.inr rfl)
      rcases mem_rows_after ws hin with h | ⟨x, hx, hxe⟩
      · exact h
      · exact absurd hxe (hrest x hx)
    · exact mem_rows_of_insert he hrest

theorem not_mem_rows_of_delete {e : LibraryEntry} : ∀ {ws : List EntryWrite} {v : Entries}, .delete e ∈ ws →
    (∀ x, .insert x ∈ ws → x.row ≠ e.row) → e.row ∉ (entryStorage.after ws v).rows
  | w :: ws, v, he, hnew => by
    rw [after_cons]
    have hrest : ∀ x, .insert x ∈ ws → x.row ≠ e.row := fun x hx => hnew x (List.mem_cons_of_mem w hx)
    rcases List.mem_cons.1 he with rfl | he
    · intro h
      rcases mem_rows_of_after h with h | ⟨x, hx, hxe⟩
      · exact (mem_rows_delete.1 h).2 rfl
      · exact hrest x hx hxe
    · exact not_mem_rows_of_delete he hrest

/-! ## A replacement -/

/-- A placement whose locks are taken: where the podcast goes, which of its
episodes give way there, and the default library that keeps them. -/
structure Replacement (W : World) where
  podcastId : Uuid
  defaultLibraryId : Uuid
  targets : List Uuid
  mediaIds : List Uuid
  conflicts : Entries
  named : ∀ l ∈ targets, W.isDefault l = false
  isDefault : W.isDefault defaultLibraryId = true
  children : ∀ m ∈ mediaIds, W.parentPodcast m = .some podcastId
  replaced : ∀ e ∈ conflicts, e.libraryId ∈ targets ∧ ∃ m ∈ mediaIds, e.target = .media m

namespace Replacement

variable (R : Replacement W)

def Puts (w : EntryWrite) : Prop :=
  ∃ e, w = .insert e ∧ (e.target = .podcast R.podcastId ∧ e.libraryId ∈ R.targets ∨
    ∃ m ∈ R.mediaIds, e.target = .media m ∧ e.libraryId = R.defaultLibraryId)

def Takes (w : EntryWrite) : Prop := ∃ e, w = .delete e ∧ e.libraryId ∈ R.targets ∧ ∃ m ∈ R.mediaIds, e.target = .media m

/-- The media is in the default library, or was put there. -/
def Kept (m : Uuid) (s : Entries) (ws : List EntryWrite) : Prop :=
  s.Holds R.defaultLibraryId (.media m) ∨
    ∃ e, .insert e ∈ ws ∧ e.libraryId = R.defaultLibraryId ∧ e.target = .media m

/-- What the locks keep while the replacement is written. -/
structure Locked (H : Set Row) (s : Entries) (ws : List EntryWrite) : Prop where
  inv : Placed W s
  podcast : .podcast R.podcastId ∈ H
  media : ∀ m ∈ R.mediaIds, .media m ∈ H
  current : ∀ id l m, l ∈ R.targets → W.parentPodcast m = .some R.podcastId → (id, l, .media m) ∈ s.rows →
    ∃ e ∈ R.conflicts, e.row = (id, l, .media m)

/-- Before the conflicting entries go. -/
structure Putting (H : Set Row) (s : Entries) (ws : List EntryWrite) : Prop extends R.Locked H s ws where
  present : ∀ e ∈ R.conflicts, e.row ∈ s.rows
  writes : ∀ w ∈ ws, R.Puts w

structure Replaced (H : Set Row) (s : Entries) (ws : List EntryWrite) : Prop extends R.Locked H s ws where
  writes : ∀ w ∈ ws, R.Puts w ∨ R.Takes w ∨ w.IsMove
  kept : ∀ m ∈ R.mediaIds, R.Kept m s ws
  gone : ∀ e ∈ R.conflicts, ∃ x, .delete x ∈ ws ∧ x.row = e.row

theorem locked_stable : EntryStable W R.Locked where
  others h hs := ⟨h.1, hs.podcast, hs.media, fun id l m hl hm hrow =>
    hs.current id l m hl hm (Elsewhere.episode_old h hs.podcast hm hrow)⟩
  locks _ hs := ⟨hs.inv, Set.mem_insert_of_mem _ hs.podcast, fun m hm => Set.mem_insert_of_mem _ (hs.media m hm), hs.current⟩

theorem putting_stable : EntryStable W R.Putting where
  others h hs := by
    refine ⟨R.locked_stable.others h hs.toLocked, fun e he => ?_, hs.writes⟩
    obtain ⟨_, m, hm, ht⟩ := R.replaced e he
    have hrow := hs.present e he
    simp only [LibraryEntry.row, ht] at hrow ⊢
    exact Elsewhere.row_kept h hrow (hs.media m hm)
  locks r hs := ⟨R.locked_stable.locks r hs.toLocked, hs.present, hs.writes⟩

theorem kept_others {s' : Entries} {m : Uuid} (h : Elsewhere entryStorage (entryDiscipline W) H s s')
    (hlocked : .media m ∈ H) (hs : R.Kept m s ws) : R.Kept m s' ws := by
  refine hs.imp_left fun hs => ?_
  obtain ⟨id, hrow⟩ := hs
  exact ⟨id, Elsewhere.row_kept h hrow hlocked⟩

theorem replaced_stable : EntryStable W R.Replaced where
  others h hs := ⟨R.locked_stable.others h hs.toLocked, hs.writes,
    fun m hm => R.kept_others h (hs.media m hm) (hs.kept m hm), hs.gone⟩
  locks r hs := ⟨R.locked_stable.locks r hs.toLocked, hs.writes, hs.kept, hs.gone⟩

theorem Replaced.moves {R : Replacement W} {ms : List EntryWrite} (h : R.Replaced H s ws)
    (hms : ∀ w ∈ ms, EntryWrite.IsMove w) : R.Replaced H s (ws ++ ms) := by
  refine ⟨⟨h.inv, h.podcast, h.media, h.current⟩, fun w hw => ?_, fun m hm => ?_, fun e he => ?_⟩
  · rcases List.mem_append.1 hw with hw | hw
    · exact h.writes w hw
    · exact .inr (.inr (hms w hw))
  · refine (h.kept m hm).imp_right fun hin => ?_
    obtain ⟨e, he, hl⟩ := hin
    exact ⟨e, List.mem_append_left _ he, hl⟩
  · obtain ⟨x, hx, hrow⟩ := h.gone e he
    exact ⟨x, List.mem_append_left _ hx, hrow⟩

variable {R}

theorem Replaced.puts (h : R.Replaced H s ws) {e : LibraryEntry} (he : .insert e ∈ ws) :
    e.target = .podcast R.podcastId ∧ e.libraryId ∈ R.targets ∨
      ∃ m ∈ R.mediaIds, e.target = .media m ∧ e.libraryId = R.defaultLibraryId := by
  rcases h.writes _ he with ⟨x, hx, h⟩ | ⟨x, hx, _⟩ | ⟨x, n, hx⟩
  · obtain rfl := EntryWrite.insert.inj hx
    exact h
  · cases hx
  · cases hx

theorem Replaced.takes (h : R.Replaced H s ws) {e : LibraryEntry} (he : .delete e ∈ ws) :
    e.libraryId ∈ R.targets ∧ ∃ m ∈ R.mediaIds, e.target = .media m := by
  rcases h.writes _ he with ⟨x, hx, _⟩ | ⟨x, hx, h⟩ | ⟨x, n, hx⟩
  · cases hx
  · obtain rfl := EntryWrite.delete.inj hx
    exact h
  · cases hx

theorem default_not_target : R.defaultLibraryId ∉ R.targets := by
  intro h
  exact absurd R.isDefault (by simp [R.named _ h])

theorem Replaced.referenced (h : R.Replaced H s ws) {m : Uuid} (hm : m ∈ R.mediaIds) :
    (entryStorage.after ws s).Referenced m := by
  have hnot (x : LibraryEntry) (hx : .delete x ∈ ws) : x.libraryId ≠ R.defaultLibraryId :=
    fun heq => default_not_target (heq ▸ (h.takes hx).1)
  rcases h.kept m hm with ⟨id, hrow⟩ | ⟨e, he, hl, ht⟩
  · rcases mem_rows_after ws hrow with hrow | ⟨x, hx, hxrow⟩
    · exact ⟨_, id, hrow⟩
    · simp only [LibraryEntry.row, Prod.mk.injEq] at hxrow
      exact absurd hxrow.2.1 (hnot x hx)
  · have hrow : e.row ∈ (entryStorage.after ws s).rows := by
      refine mem_rows_of_insert he fun x hx heq => ?_
      simp only [LibraryEntry.row, Prod.mk.injEq] at heq
      exact hnot x hx (heq.2.1.trans hl)
    simp only [LibraryEntry.row, ht] at hrow
    exact ⟨_, e.id, hrow⟩

/-- **A replacement commits well.** -/
theorem Replaced.commits (h : R.Replaced H s ws) : Commits entryStorage (entryDiscipline W) () H s ws := by
  refine commits_of h.inv ?_ ?_ ?_
  · intro e m he ht
    rcases h.puts he with ⟨ht', _⟩ | ⟨_, _, _, hl⟩
    · simp [ht] at ht'
    · exact .inl (hl ▸ R.isDefault)
  · intro e p m he ht hm hmem
    rcases h.puts he with ⟨ht', htarget⟩ | ⟨_, _, ht', _⟩
    · obtain rfl : p = R.podcastId := EntryTarget.podcast.inj (ht.symm.trans ht')
      -- media put in went to the default library, so an episode here was one of the conflicts
      have hnew (x : LibraryEntry) (hx : .insert x ∈ ws) (hxt : x.target = .media m) : x.libraryId ≠ e.libraryId := by
        rcases h.puts hx with ⟨hxp, _⟩ | ⟨_, _, _, hxl⟩
        · simp [hxt] at hxp
        · intro heq
          have hin : R.defaultLibraryId ∈ R.targets := by
            rw [← hxl, heq]
            exact htarget
          exact default_not_target hin
      obtain ⟨id, hrow⟩ := hmem
      rcases mem_rows_of_after hrow with hold | ⟨x, hx, hxrow⟩
      · obtain ⟨c, hc, hcrow⟩ := h.current id e.libraryId m htarget hm hold
        obtain ⟨x, hx, hxrow⟩ := h.gone c hc
        rw [hcrow] at hxrow
        refine not_mem_rows_of_delete hx (fun y hy heq => ?_) (hxrow ▸ hrow)
        rw [hxrow] at heq
        simp only [LibraryEntry.row, Prod.mk.injEq] at heq
        exact hnew y hy heq.2.2 heq.2.1
      · simp only [LibraryEntry.row, Prod.mk.injEq] at hxrow
        exact hnew x hx hxrow.2.2 hxrow.2.1
    · simp [ht] at ht'
  · intro e m he ht
    obtain ⟨_, m', hm', ht'⟩ := h.takes he
    obtain rfl : m = m' := EntryTarget.media.inj (ht.symm.trans ht')
    exact h.referenced hm'

/-! ## Writing a replacement -/

theorem Putting.append (h : R.Putting H s ws) {w : EntryWrite} (hw : R.Puts w) : R.Putting H s (ws ++ [w]) := by
  refine ⟨⟨h.inv, h.podcast, h.media, h.current⟩, h.present, fun u hu => ?_⟩
  rcases List.mem_append.1 hu with hu | hu
  · exact h.writes u hu
  · obtain rfl := List.mem_singleton.1 hu
    exact hw

theorem Putting.no_delete (h : R.Putting H s ws) (e : LibraryEntry) : .delete e ∉ ws := by
  intro he
  obtain ⟨x, hx, _⟩ := h.writes _ he
  cases hx

theorem Kept.append {m : Uuid} {ws' : List EntryWrite} (h : R.Kept m s ws) : R.Kept m s (ws ++ ws') := by
  refine h.imp_right fun hin => ?_
  obtain ⟨e, he, hl⟩ := hin
  exact ⟨e, List.mem_append_left _ he, hl⟩

theorem Putting.guarded (h : R.Putting H s ws) {w : EntryWrite} (hw : R.Puts w) {r : Row}
    (hr : (entryDiscipline W).guard w r) : r ∈ H := by
  obtain ⟨e, rfl, ⟨ht, _⟩ | ⟨m, hm, ht, _⟩⟩ := hw
  · obtain rfl : r = .podcast R.podcastId := by simpa [entryDiscipline, guard, ht] using hr
    exact h.podcast
  · simp only [entryDiscipline, guard, ht] at hr
    obtain ⟨p, hp, rfl⟩ := hr
    obtain rfl := Option.some.inj (hp.symm.trans (R.children m hm))
    exact h.podcast

theorem wp_placeInLibrary {u l : Uuid} (hl : l ∈ R.targets) (h : R.Putting H s ws) :
    EntryWp W (fun _ => R.Putting) (placeInLibrary W u R.podcastId R.conflicts l) H s ws := by
  refine Wp.query R.putting_stable h fun s _ hs _ => ?_
  split
  · exact Wp.done R.putting_stable hs fun _ hs => hs
  · refine Wp.quiet_bind R.putting_stable readsOnly_requireShare hs fun _ H s _ hs _ => ?_
    refine Wp.query R.putting_stable hs fun s _ hs _ => ?_
    simp only [insertEntry]
    split
    · refine Wp.write R.putting_stable hs fun s env hs _ => ?_
      have hput (e : LibraryEntry) (he : e.target = .podcast R.podcastId ∧ e.libraryId = l) : R.Puts (.insert e) :=
        ⟨e, rfl, .inl ⟨he.1, he.2 ▸ hl⟩⟩
      refine ⟨fun w hw r hr => ?_, Wp.done R.putting_stable (hs.append (hput _ ⟨rfl, rfl⟩)) fun _ hs => hs⟩
      obtain rfl := List.mem_singleton.1 hw
      refine hs.guarded ?_ hr
      exact hput _ ⟨rfl, rfl⟩
    · exact Wp.fail

def KeptLocked (R : Replacement W) (m : Uuid) : Assn Row Entries EntryWrite := fun H s ws => .media m ∈ H ∧ R.Kept m s ws

theorem keptLocked_stable (m : Uuid) : EntryStable W (R.KeptLocked m) :=
  ⟨fun h hs => ⟨hs.1, R.kept_others h hs.1 hs.2⟩, fun _ hs => ⟨Set.mem_insert_of_mem _ hs.1, hs.2⟩⟩

theorem wp_keepChild {m : Uuid} (hm : m ∈ R.mediaIds) {seen : List Uuid} (h : R.Putting H s ws)
    (hseen : ∀ c ∈ seen, R.KeptLocked c H s ws) :
    EntryWp W (fun _ H s ws => R.Putting H s ws ∧ R.KeptLocked m H s ws ∧ ∀ c ∈ seen, R.KeptLocked c H s ws)
      (do let _ ← ensureEntry W R.defaultLibraryId (.media m)) H s ws := by
  have hI : EntryStable W fun H s ws => R.Putting H s ws ∧ ∀ c ∈ seen, R.KeptLocked c H s ws :=
    R.putting_stable.and (Stable.all (J := R.KeptLocked) keptLocked_stable seen)
  have hdone := R.putting_stable.and ((keptLocked_stable (R := R) m).and (Stable.all (J := R.KeptLocked) keptLocked_stable seen))
  have hensure : EntryWp W (fun _ H s ws => R.Putting H s ws ∧ R.KeptLocked m H s ws ∧
      ∀ c ∈ seen, R.KeptLocked c H s ws) (ensureEntry W R.defaultLibraryId (.media m)) H s ws := by
    refine Wp.quiet_bind hI readsOnly_raiseIfTeardown ⟨h, hseen⟩ fun _ H s _ hs _ => ?_
    refine Wp.quiet_bind hI readsOnly_lockRow hs fun _ H s _ hs _ => ?_
    refine Wp.query hI hs fun s _ hs _ => ?_
    split
    next hexists =>
      have hkept : R.Kept m s ws := holds_of_after (Entries.entryExists_iff.1 hexists)
      exact Wp.done hdone ⟨hs.1, ⟨hs.1.media m hm, hkept⟩, hs.2⟩ fun _ hs => hs
    next =>
      refine Wp.query hI hs fun s _ hs _ => ?_
      simp only [insertEntry]
      split
      · refine Wp.write hI hs fun s env hs _ => ?_
        have hput (e : LibraryEntry) (he : e.target = .media m ∧ e.libraryId = R.defaultLibraryId) :
            R.Puts (.insert e) := ⟨e, rfl, .inr ⟨m, hm, he⟩⟩
        refine ⟨fun w hw r hr => ?_, Wp.done hdone ⟨hs.1.append (hput _ ⟨rfl, rfl⟩), ⟨hs.1.media m hm, ?_⟩, ?_⟩ fun _ hs => hs⟩
        · obtain rfl := List.mem_singleton.1 hw
          refine hs.1.guarded ?_ hr
          exact hput _ ⟨rfl, rfl⟩
        · exact .inr ⟨_, List.mem_append_right _ (List.mem_singleton.2 rfl), rfl, rfl⟩
        · exact fun c hc => ⟨(hs.2 c hc).1, (hs.2 c hc).2.append⟩
      · exact Wp.fail
  exact Wp.seq hensure fun _ H s ws hs => Wp.done hdone hs fun _ hs => hs

theorem Putting.deleted (h : R.Putting H s ws) (hu : entryStorage.unique (entryStorage.after ws s) = true)
    {e : LibraryEntry} : e ∈ (entryStorage.after ws s).filter (fun e => (R.conflicts.map LibraryEntry.id).contains e.id) ↔
      e ∈ entryStorage.after ws s ∧ ∃ c ∈ R.conflicts, c.row = e.row := by
  rw [List.mem_filter, List.contains_iff_mem, List.mem_map]
  refine and_congr_right fun he => ⟨fun hid => ?_, fun hrow => ?_⟩
  · obtain ⟨c, hc, hce⟩ := hid
    have hview : c.row ∈ (entryStorage.after ws s).rows := by
      rcases mem_rows_after ws (h.present c hc) with hview | ⟨x, hx, _⟩
      · exact hview
      · exact absurd hx (h.no_delete x)
    obtain ⟨x, hx, hxc⟩ := Entries.mem_rows.1 hview
    have hxe : x = e := by
      refine Entries.row_of_id hu hx he ?_
      simp only [LibraryEntry.row, Prod.mk.injEq] at hxc
      exact hxc.1.trans hce
    exact ⟨c, hc, hxe ▸ hxc.symm⟩
  · obtain ⟨c, hc, hce⟩ := hrow
    simp only [LibraryEntry.row, Prod.mk.injEq] at hce
    exact ⟨c, hc, hce.1⟩

theorem Putting.delete (h : R.Putting H s ws) (hkept : ∀ m ∈ R.mediaIds, R.Kept m s ws)
    (hu : entryStorage.unique (entryStorage.after ws s) = true) :
    let ds := ((entryStorage.after ws s).filter fun e => (R.conflicts.map LibraryEntry.id).contains e.id).map .delete
    (∀ w ∈ ds, ∀ r, guard W w r → r ∈ H) ∧ R.Replaced H s (ws ++ ds) := by
  intro ds
  have hds (w : EntryWrite) (hw : w ∈ ds) : ∃ e, w = .delete e ∧ e.libraryId ∈ R.targets ∧
      ∃ m ∈ R.mediaIds, e.target = .media m := by
    obtain ⟨e, he, rfl⟩ := List.mem_map.1 hw
    obtain ⟨_, c, hc, hrow⟩ := (h.deleted hu).1 he
    obtain ⟨hl, m, hm, ht⟩ := R.replaced c hc
    simp only [LibraryEntry.row, Prod.mk.injEq] at hrow
    exact ⟨e, rfl, hrow.2.1 ▸ hl, m, hm, hrow.2.2 ▸ ht⟩
  refine ⟨fun w hw r hr => ?_, ⟨h.inv, h.podcast, h.media, h.current⟩, fun w hw => ?_,
    fun m hm => (hkept m hm).append, fun c hc => ?_⟩
  · obtain ⟨e, rfl, _, m, hm, ht⟩ := hds w hw
    obtain rfl : r = .media m := by simpa [guard, ht] using hr
    exact h.media m hm
  · rcases List.mem_append.1 hw with hw | hw
    · exact .inl (h.writes w hw)
    · exact .inr (.inl (hds w hw))
  · have hview : c.row ∈ (entryStorage.after ws s).rows := by
      rcases mem_rows_after ws (h.present c hc) with hview | ⟨x, hx, _⟩
      · exact hview
      · exact absurd hx (h.no_delete x)
    obtain ⟨x, hx, hxc⟩ := Entries.mem_rows.1 hview
    have hdel : x ∈ (entryStorage.after ws s).filter fun e => (R.conflicts.map LibraryEntry.id).contains e.id :=
      (h.deleted hu).2 ⟨hx, c, hc, hxc.symm⟩
    exact ⟨x, List.mem_append_right _ (List.mem_map.2 ⟨x, hdel, rfl⟩), hxc⟩

theorem wp_replaceEpisodes {u : Uuid} (h : R.Putting H s ws) : EntryWp W (fun _ => R.Replaced)
    (replaceEpisodes W u R.podcastId R.defaultLibraryId R.targets R.mediaIds R.conflicts) H s ws := by
  refine Wp.seq (Wp.mapM' R.putting_stable (fun l hl H s ws hs => wp_placeInLibrary hl hs) h) fun placed H s ws hs => ?_
  have hloop := Wp.forM_each R.putting_stable keptLocked_stable R.mediaIds
    (fun m hm seen H s ws hs hseen => wp_keepChild hm hs hseen) hs
  refine Wp.seq hloop fun _ H s ws hs => ?_
  have hI := R.putting_stable.and (Stable.all (J := R.KeptLocked) keptLocked_stable R.mediaIds)
  refine Wp.write hI hs fun s env hs hu => ?_
  obtain ⟨hguard, hreplaced⟩ := hs.1.delete (fun m hm => (hs.2 m hm).2) hu
  refine ⟨hguard, ?_⟩
  refine Wp.seq (Wp.forM R.replaced_stable (fun l _ H s ws hs => ?_) hreplaced) fun _ H s ws hs => ?_
  · exact wp_normalizePositions R.replaced_stable (fun _ _ _ _ h hms => h.moves hms) hs
  · exact Wp.done R.replaced_stable hs fun _ hs => hs

end Replacement

end Nexus.LibraryEntries
