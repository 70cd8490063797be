/-
Which entries there are, as far as exclusion and last references ask: rows by
their unchanging columns, what writes add to them and take from them, and the
rows whose locks a write needs.

The parent podcast's lock guards every new entry of the podcast and of its
episodes; the media's lock guards the loss of one of its entries. `commits_of`
is what a transaction has to know of its own writes to commit well.
-/
import Nexus.Libraries.Entries

namespace Nexus.LibraryEntries
open Relational RowLocks Nexus.Libraries

/-! ## Rows -/

namespace Entries

def rows (v : Entries) : List (Uuid × Uuid × EntryTarget) := v.map LibraryEntry.row

def Holds (v : Entries) (libraryId : Uuid) (target : EntryTarget) : Prop := ∃ id, (id, libraryId, target) ∈ v.rows

def Referenced (v : Entries) (mediaId : Uuid) : Prop := ∃ libraryId, v.Holds libraryId (.media mediaId)

theorem mem_rows {v : Entries} {k : Uuid × Uuid × EntryTarget} : k ∈ v.rows ↔ ∃ e ∈ v, e.row = k := List.mem_map

theorem holds_iff {v : Entries} {l : Uuid} {t : EntryTarget} : v.Holds l t ↔ ∃ e ∈ v, e.libraryId = l ∧ e.target = t := by
  constructor
  · rintro ⟨id, h⟩
    obtain ⟨e, he, hrow⟩ := mem_rows.1 h
    simp only [LibraryEntry.row, Prod.mk.injEq] at hrow
    exact ⟨e, he, hrow.2⟩
  · rintro ⟨e, he, rfl, rfl⟩
    exact ⟨e.id, mem_rows.2 ⟨e, he, rfl⟩⟩

theorem entryExists_iff {v : Entries} {l : Uuid} {t : EntryTarget} : v.entryExists l t = true ↔ v.Holds l t := by
  simp only [entryExists, holds_iff, List.any_eq_true, Bool.and_eq_true, beq_iff_eq]

theorem row_of_id {v : Entries} (hu : entryStorage.unique v = true) {a b : LibraryEntry} (ha : a ∈ v) (hb : b ∈ v)
    (h : a.id = b.id) : a = b := by
  simp only [entryStorage, Bool.and_eq_true, decide_eq_true_eq] at hu
  exact List.inj_on_of_nodup_map hu.1 ha hb h

theorem row_of_target {v : Entries} (hu : entryStorage.unique v = true) {a b : LibraryEntry} (ha : a ∈ v) (hb : b ∈ v)
    (hl : a.libraryId = b.libraryId) (ht : a.target = b.target) : a = b := by
  simp only [entryStorage, Bool.and_eq_true, decide_eq_true_eq] at hu
  exact List.inj_on_of_nodup_map hu.2 ha hb (by simp [hl, ht])

end Entries

@[simp] theorem mem_rows_insert {v : Entries} {e : LibraryEntry} {k} :
    k ∈ (EntryWrite.insert e |>.apply v).rows ↔ k ∈ v.rows ∨ k = e.row := by
  simp [EntryWrite.apply, Entries.rows]

@[simp] theorem mem_rows_delete {v : Entries} {e : LibraryEntry} {k} :
    k ∈ (EntryWrite.delete e |>.apply v).rows ↔ k ∈ v.rows ∧ k ≠ e.row := by
  simp only [EntryWrite.apply, Entries.rows, List.mem_map, List.mem_filter, bne_iff_ne]
  constructor
  · rintro ⟨x, ⟨hx, hne⟩, rfl⟩
    exact ⟨⟨x, hx, rfl⟩, hne⟩
  · rintro ⟨⟨x, hx, rfl⟩, hne⟩
    exact ⟨x, ⟨hx, hne⟩, rfl⟩

@[simp] theorem rows_move {v : Entries} {e : LibraryEntry} {n : Nat} : (EntryWrite.move e n |>.apply v).rows = v.rows := by
  simp only [EntryWrite.apply, Entries.rows, List.map_map]
  refine List.map_congr_left fun x _ => ?_
  simp only [Function.comp_apply]
  split <;> rfl

/-! ## A list of writes -/

section Writes

variable {v : Entries} {ws ws' : List EntryWrite} {k : Uuid × Uuid × EntryTarget}

theorem after_cons {w : EntryWrite} : entryStorage.after (w :: ws) v = entryStorage.after ws (w.apply v) := rfl

theorem mem_rows_of_after (h : k ∈ (entryStorage.after ws v).rows) : k ∈ v.rows ∨ ∃ e, .insert e ∈ ws ∧ e.row = k := by
  induction ws generalizing v with
  | nil => exact .inl h
  | cons w ws ih =>
    rw [after_cons] at h
    rcases ih h with h | ⟨e, he, hk⟩
    · cases w with
      | insert e =>
        rcases mem_rows_insert.1 h with h | rfl
        · exact .inl h
        · exact .inr ⟨e, by simp, rfl⟩
      | delete e => exact .inl (mem_rows_delete.1 h).1
      | move e n => exact .inl (rows_move ▸ h)
    · exact .inr ⟨e, by simp [he], hk⟩

theorem mem_rows_after (ws : List EntryWrite) (h : k ∈ v.rows) : k ∈ (entryStorage.after ws v).rows ∨ ∃ e, .delete e ∈ ws ∧ e.row = k := by
  induction ws generalizing v with
  | nil => exact .inl h
  | cons w ws ih =>
    rw [after_cons]
    have hstay (hw : k ∈ (w.apply v).rows) :
        k ∈ (entryStorage.after ws (w.apply v)).rows ∨ ∃ e, .delete e ∈ w :: ws ∧ e.row = k := by
      rcases ih hw with hw | ⟨e, he, hk⟩
      · exact .inl hw
      · exact .inr ⟨e, by simp [he], hk⟩
    cases w with
    | insert e => exact hstay (mem_rows_insert.2 (.inl h))
    | delete e =>
      by_cases hk : k = e.row
      · exact .inr ⟨e, by simp, hk.symm⟩
      · exact hstay (mem_rows_delete.2 ⟨h, hk⟩)
    | move e n => exact hstay (by rwa [rows_move])

theorem holds_of_after {l t} (h : (entryStorage.after ws v).Holds l t) :
    v.Holds l t ∨ ∃ e, .insert e ∈ ws ∧ e.libraryId = l ∧ e.target = t := by
  obtain ⟨id, h⟩ := h
  rcases mem_rows_of_after h with h | ⟨e, he, hk⟩
  · exact .inl ⟨id, h⟩
  · simp only [LibraryEntry.row, Prod.mk.injEq] at hk
    exact .inr ⟨e, he, hk.2⟩

theorem holds_after {l t} (hws : ∀ e, .delete e ∉ ws) (h : v.Holds l t) : (entryStorage.after ws v).Holds l t := by
  obtain ⟨id, h⟩ := h
  rcases mem_rows_after ws h with h | ⟨e, he, _⟩
  · exact ⟨id, h⟩
  · exact absurd he (hws e)

end Writes

/-! ## What holds of the committed entries -/

/-- The row locks an entry's write needs. -/
def guard (W : World) : EntryWrite → Row → Prop
  | .insert e, r => match e.target with
    | .media mediaId => ∃ podcastId, W.parentPodcast mediaId = .some podcastId ∧ r = .podcast podcastId
    | .podcast podcastId => r = .podcast podcastId
  | .delete e, r => match e.target with
    | .media mediaId => r = .media mediaId
    | .podcast _ => False
  | .move _ _, _ => False

/-- One entry of a target in a library, one entry at a position, and no named
library that holds a podcast and one of its episodes. -/
structure Placed (W : World) (v : Entries) : Prop where
  unique : entryStorage.unique v = true
  positions : entryStorage.deferred v = true
  exclusive : ∀ libraryId mediaId podcastId, W.isDefault libraryId = false → W.parentPodcast mediaId = .some podcastId →
    v.Holds libraryId (.podcast podcastId) → ¬ v.Holds libraryId (.media mediaId)

/-- Media that has an entry keeps one. -/
def StillReferenced (v v' : Entries) : Prop := ∀ mediaId, v.Referenced mediaId → v'.Referenced mediaId

theorem StillReferenced.refl (v : Entries) : StillReferenced v v := fun _ h => h

theorem StillReferenced.trans (u v w : Entries) (h : StillReferenced u v) (h' : StillReferenced v w) :
    StillReferenced u w := fun m hm => h' m (h m hm)

def entryDiscipline (W : World) : Discipline Row Entries EntryWrite where
  guard := guard W
  inv := Placed W
  keeps := StillReferenced

section

variable {W : World} {H : Set Row} {s s' : Entries} {ws : List EntryWrite}

theorem Elsewhere.row_old {k : Uuid × Uuid × EntryTarget} (h : Elsewhere entryStorage (entryDiscipline W) H s s')
    (hk : k ∈ s'.rows) (hheld : ∀ e : LibraryEntry, e.row = k → ∃ r ∈ H, guard W (.insert e) r) : k ∈ s.rows := by
  obtain ⟨_, _, ws, hws, rfl⟩ := h
  rcases mem_rows_of_after hk with hk | ⟨e, he, hek⟩
  · exact hk
  · obtain ⟨r, hr, hg⟩ := hheld e hek
    exact absurd hr (hws _ he r hg)

theorem Elsewhere.row_kept {id l m : Uuid} (h : Elsewhere entryStorage (entryDiscipline W) H s s')
    (hk : (id, l, .media m) ∈ s.rows) (hheld : .media m ∈ H) : (id, l, .media m) ∈ s'.rows := by
  obtain ⟨_, _, ws, hws, rfl⟩ := h
  rcases mem_rows_after ws hk with hk | ⟨e, he, hek⟩
  · exact hk
  · simp only [LibraryEntry.row, Prod.mk.injEq] at hek
    have hguard : guard W (.delete e) (.media m) := by simp [guard, hek.2.2]
    exact absurd hheld (hws _ he _ hguard)

theorem Elsewhere.podcast_old {l p : Uuid} (h : Elsewhere entryStorage (entryDiscipline W) H s s')
    (hheld : .podcast p ∈ H) (hs : s'.Holds l (.podcast p)) : s.Holds l (.podcast p) := by
  obtain ⟨id, hk⟩ := hs
  refine ⟨id, Elsewhere.row_old h hk fun e he => ⟨.podcast p, hheld, ?_⟩⟩
  simp only [LibraryEntry.row, Prod.mk.injEq] at he
  simp [guard, he.2.2]

theorem Elsewhere.episode_old {id l m p : Uuid} (h : Elsewhere entryStorage (entryDiscipline W) H s s')
    (hheld : .podcast p ∈ H) (hm : W.parentPodcast m = .some p) (hs : (id, l, .media m) ∈ s'.rows) :
    (id, l, .media m) ∈ s.rows := by
  refine Elsewhere.row_old h hs fun e he => ⟨.podcast p, hheld, ?_⟩
  simp only [LibraryEntry.row, Prod.mk.injEq] at he
  simp [guard, he.2.2, hm]

/-- A transaction commits well if it filed no media beside its podcast, placed
no podcast beside an episode of it, and left an entry of what it removed. -/
theorem commits_of (hinv : Placed W s)
    (hmedia : ∀ e m, .insert e ∈ ws → e.target = .media m → W.isDefault e.libraryId = true ∨
      ∀ p, W.parentPodcast m = .some p → ¬ (entryStorage.after ws s).Holds e.libraryId (.podcast p))
    (hpodcast : ∀ e p m, .insert e ∈ ws → e.target = .podcast p → W.parentPodcast m = .some p →
      ¬ (entryStorage.after ws s).Holds e.libraryId (.media m))
    (hgone : ∀ e m, .delete e ∈ ws → e.target = .media m → (entryStorage.after ws s).Referenced m) :
    Commits entryStorage (entryDiscipline W) () H s ws := by
  intro hu hd
  refine ⟨⟨hu, hd, ?_⟩, ?_⟩
  · intro l m p hl hm hp hmem
    rcases holds_of_after hp with hp' | ⟨e, he, rfl, ht⟩
    · rcases holds_of_after hmem with hm' | ⟨e, he, rfl, ht⟩
      · exact hinv.exclusive l m p hl hm hp' hm'
      · rcases hmedia e m he ht with hdef | hno
        · simp [hdef] at hl
        · exact hno p hm hp
    · exact hpodcast e p m he ht hm hmem
  · intro m hm
    obtain ⟨l, id, hk⟩ := hm
    rcases mem_rows_after ws hk with hk | ⟨e, he, hek⟩
    · exact ⟨l, id, hk⟩
    · simp only [LibraryEntry.row, Prod.mk.injEq] at hek
      exact hgone e m he hek.2.2

end

end Nexus.LibraryEntries
