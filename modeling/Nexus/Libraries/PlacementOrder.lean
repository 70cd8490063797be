/-
What an accepted placement of a podcast leaves of every library's order.

The podcast enters at the position of the first episode it replaces, which that
episode still occupies; the episodes then go, and each library that lost some is
numbered again. `AfterPlacement` says what is then in each library, and
`placePodcast_order` that a transaction which commits leaves it and one which
does not leaves everything.
-/
import Nexus.Lib.StandIn
import Nexus.Lib.Transact
import Nexus.Libraries.EntryOrder
import Nexus.Libraries.Subsumption

namespace Nexus.LibraryEntries
open Relational RowLocks StandIn ExceptFacts Transition Nexus.Libraries

/-! ## What a placement is to leave -/

/-- Whether the entry's target is an episode of the podcast. -/
def World.isEpisode (W : World) (podcastId : Uuid) : EntryTarget → Bool
  | .media mediaId => W.parentPodcast mediaId == .some podcastId
  | .podcast _ => false

/-- What the governance checks ask of the actor and a destination. -/
def World.Manages (W : World) (env : Env) (viewerId libraryId : Uuid) : Prop :=
  ∃ ctx, Libraries.lockLibraryForMember (W.db env) viewerId libraryId = .ok ctx ∧ ctx.role = .admin ∧
    ctx.isDefault = false ∧ ctx.systemKey = .none

/-- Whether others see more once something is added to the library. -/
def Env.increasesAccess (env : Env) (actorUserId libraryId : Uuid) : Bool :=
  (env.memberships.rows.any fun m => m.libraryId == libraryId && m.userId != actorUserId) ||
    env.invitations.rows.any fun i => i.libraryId == libraryId && i.status == .pending

/-- The rows of a library's entries, in order. -/
def Entries.rowsInOrder (v : Entries) (l : Uuid) : List (Uuid × Uuid × EntryTarget) := (v.inOrder l).map LibraryEntry.row

/-- A placement of `podcastId` in `libraryIds` by `viewerId` took `v` to `v'`,
where the `k`-th statement read `x k` of the other services. -/
structure AfterPlacement (W : World) (x : Nat → Env) (viewerId podcastId : Uuid) (libraryIds : List Uuid)
    (confirmation : Option (List Char)) (v v' : Entries) : Prop where
  confirmed : v.podcastChildConflictRows W podcastId libraryIds ≠ [] → confirmation = .some
    (W.fingerprint viewerId podcastId (libraryIds.insertionSort (· ≤ ·))
      (((v.podcastChildConflictRows W podcastId libraryIds).map LibraryEntry.id).insertionSort (· ≤ ·)))
  managed : ∀ l ∈ libraryIds, ∃ k, W.Manages (x k) viewerId l
  entitled : ∀ l ∈ libraryIds, v.entryExists l (.podcast podcastId) = false →
    ∃ k k', (x k).increasesAccess viewerId l = true → (x k').canShare viewerId = true
  /-- The podcast stands for the first of its episodes, the others stay. -/
  placed : ∀ l ∈ libraryIds, v.entryExists l (.podcast podcastId) = false → ∃ id, v'.rowsInOrder l =
    standIn (fun r => W.isEpisode podcastId r.2.2) (id, l, .podcast podcastId) (v.rowsInOrder l)
  present : ∀ l ∈ libraryIds, v.entryExists l (.podcast podcastId) = true →
    v'.rowsInOrder l = (v.rowsInOrder l).filter fun r => !W.isEpisode podcastId r.2.2
  dense : ∀ l ∈ libraryIds, (∃ e ∈ v.inLibrary l, W.isEpisode podcastId e.target = true) →
    (v'.inOrder l).map LibraryEntry.position = List.range (v'.inOrder l).length
  /-- What the default library held it holds where it was. -/
  kept : ∃ d, findDefaultLibraryId W viewerId = .some d ∧
    (∀ l ∈ libraryIds, ∀ e ∈ v.inLibrary l, W.isEpisode podcastId e.target = true → v'.entryExists d e.target = true) ∧
    ∃ saved, v'.inLibrary d = v.inLibrary d ++ saved
  elsewhere : ∀ l, l ∉ libraryIds → findDefaultLibraryId W viewerId ≠ .some l → v'.inLibrary l = v.inLibrary l

variable {W : World} {x : Nat → Env} {viewerId podcastId defaultLibraryId l : Uuid} {targets : List Uuid}
  {v v' : Entries} {e : LibraryEntry}

/-- The part of an entries transaction returned. -/
abbrev EntryGives {α : Type} (x : Nat → Env) (p : EntryTx α) (v : Entries) (a : α) (v' : Entries) : Prop :=
  Gives entryStorage x p v a v'

namespace Entries

/-! ## The conflicting entries -/

theorem mem_conflicts : e ∈ v.podcastChildConflictRows W podcastId targets ↔
    e ∈ v ∧ e.libraryId ∈ targets ∧ W.isEpisode podcastId e.target = true := by
  rw [mem_conflictRows]
  cases ht : e.target <;> simp [World.isEpisode]

theorem inLibrary_append : (v ++ v').inLibrary l = v.inLibrary l ++ v'.inLibrary l := List.filter_append ..

theorem entryExists_eq {t : EntryTarget} : v.entryExists l t = (v.inLibrary l).any fun e => e.target == t := by
  simp [entryExists, inLibrary, List.any_filter]

theorem nextPosition_congr (h : v.inLibrary l = v'.inLibrary l) : v.nextPosition l = v'.nextPosition l :=
  congrArg (fun es => (es.map fun e : LibraryEntry => e.position + 1).foldr max 0) h

theorem earliest_some {conflicts : Entries} {n : Nat} (h : earliestPosition conflicts l = .some n) :
    (∃ c ∈ conflicts, c.libraryId = l ∧ c.position = n) ∧ ∀ c ∈ conflicts, c.libraryId = l → n ≤ c.position := by
  obtain ⟨hmem, hle⟩ := List.min?_eq_some_iff.1 h
  obtain ⟨c, hc, hn⟩ := List.mem_map.1 hmem
  refine ⟨⟨c, (mem_inLibrary.1 hc).1, (mem_inLibrary.1 hc).2, hn⟩, fun c hc hl => hle _ ?_⟩
  exact List.mem_map.2 ⟨c, mem_inLibrary.2 ⟨hc, hl⟩, rfl⟩

theorem earliest_none {conflicts : Entries} (h : earliestPosition conflicts l = .none) : ∀ c ∈ conflicts, c.libraryId ≠ l := by
  intro c hc hl
  have hnil := List.map_eq_nil_iff.1 (List.min?_eq_none_iff.1 h)
  have hin := mem_inLibrary.2 ⟨hc, hl⟩
  rw [inLibrary, hnil] at hin
  simp at hin

end Entries

/-! ## The loops -/

theorem gives_requireShare {u : Unit} (h : EntryGives x (requireShareEntitlementForAccessIncrease viewerId l) v u v') :
    v' = v ∧ ∃ k k', (x k).increasesAccess viewerId l = true → (x k').canShare viewerId = true := by
  obtain ⟨_, _, hread, hshare⟩ := Gives.bind h
  obtain ⟨k, rfl, rfl⟩ := Gives.query hread
  obtain ⟨_, _, hread', hrest⟩ := Gives.bind hshare
  obtain ⟨k', rfl, rfl⟩ := Gives.query hread'
  split at hrest
  next => exact (Gives.fail hrest).elim
  next hok =>
    refine ⟨(Gives.done hrest).2, k, k', fun hinc => ?_⟩
    by_contra hno
    exact hok ⟨hinc, hno⟩

theorem gives_insertEntry {t : EntryTarget} {n : Nat} {u : Unit} (h : EntryGives x (insertEntry W l t n) v u v') :
    ∃ k, v' = v ++ [⟨(x k).newId, l, t, (x k).now, n⟩] ∧ entryStorage.unique v' = true := by
  simp only [insertEntry] at h
  split at h
  next => exact Gives.write h
  next => exact (Gives.fail h).elim

/-- After the podcast went into the `seen` libraries that did not hold it. -/
structure Added (podcastId : Uuid) (conflicts v : Entries) (seen : List Uuid) (v' : Entries) : Prop where
  unique : entryStorage.unique v' = true
  added : ∃ added : Entries, v' = v ++ added ∧
    added.map LibraryEntry.libraryId = seen.filter (fun l => !v.entryExists l (.podcast podcastId)) ∧
    ∀ e ∈ added, e.target = .podcast podcastId ∧
      e.position = (earliestPosition conflicts e.libraryId).getD (v.nextPosition e.libraryId)

theorem inLibrary_of_not_mem {es : Entries} (h : l ∉ es.map LibraryEntry.libraryId) : es.inLibrary l = [] := by
  refine List.filter_eq_nil_iff.2 fun e he hl => h ?_
  exact List.mem_map.2 ⟨e, he, by simpa using hl⟩

theorem inLibrary_of_mem : ∀ {es : Entries}, (es.map LibraryEntry.libraryId).Nodup → e ∈ es →
    es.inLibrary e.libraryId = [e]
  | a :: es, hnd, he => by
    obtain ⟨ha, hnd⟩ := List.nodup_cons.1 hnd
    rcases List.mem_cons.1 he with rfl | he
    · have hrest : Entries.inLibrary es e.libraryId = [] := inLibrary_of_not_mem ha
      rw [Entries.inLibrary, List.filter_cons_of_pos (by simp), ← Entries.inLibrary, hrest]
    · have hne : ¬ a.libraryId = e.libraryId := fun heq => ha (heq ▸ List.mem_map.2 ⟨e, he, rfl⟩)
      rw [Entries.inLibrary, List.filter_cons_of_neg (by simpa using hne)]
      exact inLibrary_of_mem hnd he

theorem Added.inLibrary {conflicts : Entries} {seen : List Uuid} (h : Added podcastId conflicts v seen v') (hl : l ∉ seen) :
    v'.inLibrary l = v.inLibrary l := by
  obtain ⟨added, rfl, hlibs, -⟩ := h.added
  have hnone : added.inLibrary l = [] := by
    refine inLibrary_of_not_mem fun hin => hl ?_
    rw [hlibs] at hin
    exact (List.mem_filter.1 hin).1
  rw [Entries.inLibrary_append, hnone, List.append_nil]

theorem Added.step {conflicts : Entries} {seen : List Uuid} {w : Entries} {b : Bool} (h : Added podcastId conflicts v seen w)
    (hl : l ∉ seen) (hg : EntryGives x (placeInLibrary W viewerId podcastId conflicts l) w b v') :
    Added podcastId conflicts v (seen ++ [l]) v' ∧ (v.entryExists l (.podcast podcastId) = false →
      ∃ k k', (x k).increasesAccess viewerId l = true → (x k').canShare viewerId = true) := by
  have hexists : w.entryExists l (.podcast podcastId) = v.entryExists l (.podcast podcastId) := by
    rw [Entries.entryExists_eq, Entries.entryExists_eq, h.inLibrary hl]
  have hnext : w.nextPosition l = v.nextPosition l := Entries.nextPosition_congr (h.inLibrary hl)
  obtain ⟨_, _, hread, hrest⟩ := Gives.bind hg
  obtain ⟨_, rfl, rfl⟩ := Gives.query hread
  rw [hexists] at hrest
  split at hrest
  next hpresent =>
    obtain ⟨-, rfl⟩ := Gives.done hrest
    refine ⟨⟨h.unique, ?_⟩, fun hno => by simp [hpresent] at hno⟩
    obtain ⟨added, rfl, hlibs, hrows⟩ := h.added
    exact ⟨added, rfl, by simp [hlibs, hpresent], hrows⟩
  next habsent =>
    have habsent : v.entryExists l (.podcast podcastId) = false := by simpa using habsent
    obtain ⟨_, u, hshare, hput⟩ := Gives.bind hrest
    obtain ⟨hu, hentitled⟩ := gives_requireShare hshare
    subst hu
    obtain ⟨_, _, hread, hput⟩ := Gives.bind hput
    obtain ⟨_, rfl, rfl⟩ := Gives.query hread
    obtain ⟨_, _, hinsert, hdone⟩ := Gives.bind hput
    obtain ⟨-, rfl⟩ := Gives.done hdone
    obtain ⟨j, rfl, hunique⟩ := gives_insertEntry hinsert
    refine ⟨⟨hunique, ?_⟩, fun _ => hentitled⟩
    obtain ⟨added, rfl, hlibs, hrows⟩ := h.added
    refine ⟨added ++ [⟨(x j).newId, l, .podcast podcastId, (x j).now,
      (earliestPosition conflicts l).getD (v.nextPosition l)⟩], ?_, ?_, ?_⟩
    · rw [hnext, ← List.append_assoc]
    · simp [hlibs, habsent]
    · intro e he
      rcases List.mem_append.1 he with he | he
      · exact hrows e he
      · obtain rfl := List.mem_singleton.1 he
        exact ⟨rfl, rfl⟩

/-- After the `seen` media were kept in the default library. -/
structure Saved (defaultLibraryId : Uuid) (v : Entries) (seen : List Uuid) (v' : Entries) : Prop where
  unique : entryStorage.unique v' = true
  saved : ∃ saved : Entries, v' = v ++ saved ∧ (∀ e ∈ saved, e.libraryId = defaultLibraryId)
  present : ∀ m ∈ seen, v'.entryExists defaultLibraryId (.media m) = true

theorem Saved.step {seen : List Uuid} {w : Entries} {m : Uuid} (h : Saved defaultLibraryId v seen w)
    (hg : EntryGives x (do let _ ← ensureEntry W defaultLibraryId (.media m)) w () v') :
    Saved defaultLibraryId v (seen ++ [m]) v' := by
  obtain ⟨_, u, hensure, hdone⟩ := Gives.bind hg
  obtain ⟨-, rfl⟩ := Gives.done hdone
  obtain ⟨_, _, hteardown, hlock⟩ := Gives.bind hensure
  obtain ⟨rfl, -⟩ := Gives.quiet readsOnly_raiseIfTeardown hteardown
  obtain ⟨_, _, hlocked, hrest⟩ := Gives.bind hlock
  obtain rfl := Gives.lockRow hlocked
  obtain ⟨_, _, hread, hrest⟩ := Gives.bind hrest
  obtain ⟨_, rfl, rfl⟩ := Gives.query hread
  split at hrest
  next hexists =>
    obtain ⟨-, rfl⟩ := Gives.done hrest
    refine ⟨h.unique, h.saved, fun m' hm' => ?_⟩
    rcases List.mem_append.1 hm' with hm' | hm'
    · exact h.present m' hm'
    · obtain rfl := List.mem_singleton.1 hm'
      exact hexists
  next =>
    obtain ⟨_, _, hread, hput⟩ := Gives.bind hrest
    obtain ⟨_, rfl, rfl⟩ := Gives.query hread
    obtain ⟨_, _, hinsert, hdone⟩ := Gives.bind hput
    obtain ⟨-, rfl⟩ := Gives.done hdone
    obtain ⟨j, rfl, hunique⟩ := gives_insertEntry hinsert
    obtain ⟨saved, rfl, hsaved⟩ := h.saved
    refine ⟨hunique, ⟨saved ++ [_], List.append_assoc .., fun e he => ?_⟩, fun m' hm' => ?_⟩
    · rcases List.mem_append.1 he with he | he
      · exact hsaved e he
      · obtain rfl := List.mem_singleton.1 he
        rfl
    · rw [Entries.entryExists, List.any_append, Bool.or_eq_true]
      rcases List.mem_append.1 hm' with hm' | hm'
      · exact .inl (h.present m' hm')
      · obtain rfl := List.mem_singleton.1 hm'
        exact .inr (by simp)

/-- After the `seen` libraries were numbered again. -/
structure Renumbered (v : Entries) (seen : List Uuid) (v' : Entries) : Prop where
  unique : entryStorage.unique v' = true
  others : ∀ l, l ∉ seen → v'.inLibrary l = v.inLibrary l
  numbered : ∀ l ∈ seen, v'.inOrder l = (v.inOrder l).mapIdx fun i e => { e with position := i }

theorem Renumbered.step {seen : List Uuid} {w : Entries} (h : Renumbered v seen w) (hl : l ∉ seen)
    (hg : EntryGives x (normalizePositions l) w () v') : Renumbered v (seen ++ [l]) v' := by
  obtain ⟨_, rfl, hu⟩ := Gives.write hg
  refine ⟨hu, fun l' hl' => ?_, fun l' hl' => ?_⟩
  · simp only [List.mem_append, List.mem_singleton, not_or] at hl'
    exact (Entries.inLibrary_renumbered h.unique hl'.2).trans (h.others l' hl'.1)
  · rcases List.mem_append.1 hl' with hl' | hl'
    · have hne : l' ≠ l := fun heq => hl (heq ▸ hl')
      exact (Entries.inOrder_congr (Entries.inLibrary_renumbered h.unique hne)).trans (h.numbered l' hl')
    · obtain rfl := List.mem_singleton.1 hl'
      refine (Entries.inOrder_renumbered h.unique).trans ?_
      rw [Entries.inOrder_congr (h.others l' hl)]

theorem Renumbered.rowsInOrder {seen : List Uuid} (h : Renumbered v seen v') : v'.rowsInOrder l = v.rowsInOrder l := by
  simp only [Entries.rowsInOrder]
  by_cases hl : l ∈ seen
  · rw [h.numbered l hl, Entries.rows_mapIdx]
  · rw [Entries.inOrder_congr (h.others l hl)]

/-! ## The deletes -/

theorem after_deletes (ds : Entries) :
    entryStorage.after (ds.map .delete) v = v.filter fun e => ds.all fun d => e.row != d.row := by
  induction ds generalizing v with
  | nil => simp
  | cons d ds ih =>
    rw [List.map_cons, after_cons, ih, EntryWrite.apply, List.filter_filter]
    exact List.filter_congr fun e _ => by simp [Bool.and_comm]

theorem after_deletes_where (hu : entryStorage.unique v = true) (c : LibraryEntry → Bool) :
    entryStorage.after ((v.filter c).map .delete) v = v.filter fun e => !c e := by
  rw [after_deletes]
  refine List.filter_congr fun e he => ?_
  cases hc : c e with
  | true =>
    have hin : e ∈ v.filter c := List.mem_filter.2 ⟨he, hc⟩
    simp only [Bool.not_true, List.all_eq_false]
    exact ⟨e, hin, by simp⟩
  | false =>
    simp only [Bool.not_false, List.all_eq_true, bne_iff_ne]
    intro d hd hrow
    obtain ⟨hd, hcd⟩ := List.mem_filter.1 hd
    obtain rfl := Entries.row_injective hu he hd hrow
    simp [hc] at hcd

/-! ## The tables of a placement, one step after the other -/

/-- The podcast went in, the media were saved, the conflicting entries went and
the libraries that lost some were numbered again. -/
structure Replaces (W : World) (podcastId defaultLibraryId : Uuid) (targets mediaIds : List Uuid)
    (v v₁ v₂ v₃ v' : Entries) : Prop where
  added : Added podcastId (v.podcastChildConflictRows W podcastId targets) v targets v₁
  saved : Saved defaultLibraryId v₁ mediaIds v₂
  emptied : v₃ = v₂.filter fun e => !((v.podcastChildConflictRows W podcastId targets).map LibraryEntry.id).contains e.id
  renumbered : Renumbered v₃
    (targets.filter fun l => decide (0 < episodeCount (v.podcastChildConflictRows W podcastId targets) l)) v'

theorem gives_replaceEpisodes {mediaIds : List Uuid} {r : PodcastPlacementResult} (hu : entryStorage.unique v = true)
    (hnd : targets.Nodup) (h : EntryGives x (replaceEpisodes W viewerId podcastId defaultLibraryId targets mediaIds
      (v.podcastChildConflictRows W podcastId targets)) v r v') :
    (∃ v₁ v₂ v₃, Replaces W podcastId defaultLibraryId targets mediaIds v v₁ v₂ v₃ v') ∧
      ∀ l ∈ targets, v.entryExists l (.podcast podcastId) = false →
        ∃ k k', (x k).increasesAccess viewerId l = true → (x k').canShare viewerId = true := by
  have hnew (seen rest : List Uuid) (l : Uuid) {ls : List Uuid} (hls : ls.Nodup) (hl : ls = seen ++ l :: rest) : l ∉ seen := by
    subst hl
    exact fun hin => (List.nodup_append.1 hls).2.2 l hin l (by simp) rfl
  obtain ⟨placed, v₁, hplace, hrest⟩ := Gives.bind h
  have hadded := Gives.mapM' (I := fun seen _ w => Added podcastId (v.podcastChildConflictRows W podcastId targets) v seen w ∧
      ∀ l ∈ seen, v.entryExists l (.podcast podcastId) = false →
        ∃ k k', (x k).increasesAccess viewerId l = true → (x k').canShare viewerId = true)
    (fun seen _ l rest b w w' hl hseen hg => by
      obtain ⟨hstep, hentitled⟩ := hseen.1.step (hnew seen rest l hnd hl) hg
      refine ⟨hstep, fun l' hl' => ?_⟩
      rcases List.mem_append.1 hl' with hl' | hl'
      · exact hseen.2 l' hl'
      · obtain rfl := List.mem_singleton.1 hl'
        exact hentitled)
    ⟨⟨hu, [], (List.append_nil v).symm, rfl, by simp⟩, by simp⟩ hplace
  obtain ⟨_, v₂, hsave, hrest⟩ := Gives.bind hrest
  have hsaved := Gives.forM (I := fun seen w => Saved defaultLibraryId v₁ seen w)
    (fun seen m rest w w' _ hseen hg => hseen.step hg)
    ⟨hadded.1.unique, ⟨[], (List.append_nil v₁).symm, by simp⟩, by simp⟩ hsave
  obtain ⟨_, v₃, hdelete, hrest⟩ := Gives.bind hrest
  obtain ⟨_, hv₃, hu₃⟩ := Gives.write hdelete
  obtain ⟨_, v₄, hnumber, hdone⟩ := Gives.bind hrest
  obtain ⟨-, rfl⟩ := Gives.done hdone
  have hrenumbered := Gives.forM (I := fun seen w => Renumbered v₃ seen w)
    (fun seen l rest w w' hl hseen hg => hseen.step (hnew seen rest l (hnd.filter _) hl) hg)
    ⟨hu₃, fun _ _ => rfl, by simp⟩ hnumber
  refine ⟨⟨v₁, v₂, v₃, hadded.1, hsaved, ?_, hrenumbered⟩, hadded.2⟩
  rw [hv₃, after_deletes_where hsaved.unique]

namespace Replaces

variable {mediaIds : List Uuid} {v₁ v₂ v₃ : Entries}

theorem emptied_eq (h : Replaces W podcastId defaultLibraryId targets mediaIds v v₁ v₂ v₃ v')
    (hdefault : defaultLibraryId ∉ targets) :
    v₃ = v₂.filter fun e => !(targets.contains e.libraryId && W.isEpisode podcastId e.target) := by
  rw [h.emptied]
  obtain ⟨added, rfl, -, hrows⟩ := h.added.added
  obtain ⟨saved, rfl, hsaved⟩ := h.saved.saved
  refine List.filter_congr fun e he => congrArg not ?_
  rw [Bool.eq_iff_iff, List.contains_iff_mem, List.mem_map, Bool.and_eq_true, List.contains_iff_mem]
  constructor
  · rintro ⟨c, hc, hid⟩
    obtain ⟨hcv, hc⟩ := Entries.mem_conflicts.1 hc
    obtain rfl := Entries.row_of_id h.saved.unique (List.mem_append_left _ (List.mem_append_left _ hcv)) he hid
    exact hc
  · rintro ⟨hl, hep⟩
    refine ⟨e, Entries.mem_conflicts.2 ⟨?_, hl, hep⟩, rfl⟩
    rcases List.mem_append.1 he with he | he
    · rcases List.mem_append.1 he with he | he
      · exact he
      · rw [(hrows e he).1] at hep
        cases hep
    · rw [hsaved e he] at hl
      exact absurd hl hdefault

theorem inLibrary_target (h : Replaces W podcastId defaultLibraryId targets mediaIds v v₁ v₂ v₃ v')
    (hdefault : defaultLibraryId ∉ targets) (hl : l ∈ targets) :
    v₃.inLibrary l = (v₁.inLibrary l).filter fun e => !W.isEpisode podcastId e.target := by
  obtain ⟨saved, hv₂, hsaved⟩ := h.saved.saved
  have hnone : saved.inLibrary l = [] := by
    refine inLibrary_of_not_mem fun hin => hdefault ?_
    obtain ⟨e, he, rfl⟩ := List.mem_map.1 hin
    rwa [← hsaved e he]
  have hv₂ : v₂.inLibrary l = v₁.inLibrary l := by rw [hv₂, Entries.inLibrary_append, hnone, List.append_nil]
  rw [← hv₂, h.emptied_eq hdefault, Entries.inLibrary, List.filter_filter, List.filter_filter]
  refine List.filter_congr fun e _ => ?_
  by_cases he : e.libraryId = l
  · simp [he, hl]
  · simp [beq_false_of_ne he]

theorem inLibrary_other (h : Replaces W podcastId defaultLibraryId targets mediaIds v v₁ v₂ v₃ v')
    (hdefault : defaultLibraryId ∉ targets) (hl : l ∉ targets) : v'.inLibrary l = v₂.inLibrary l := by
  have hnumbered : l ∉ targets.filter fun l =>
      decide (0 < episodeCount (v.podcastChildConflictRows W podcastId targets) l) :=
    fun hin => hl (List.mem_filter.1 hin).1
  rw [h.renumbered.others l hnumbered, h.emptied_eq hdefault, Entries.inLibrary, List.filter_filter]
  refine List.filter_congr fun e _ => ?_
  by_cases he : e.libraryId = l
  · simp [he, hl]
  · simp [beq_false_of_ne he]

theorem added_entry (h : Replaces W podcastId defaultLibraryId targets mediaIds v v₁ v₂ v₃ v') (hnd : targets.Nodup)
    (hl : l ∈ targets) (habsent : v.entryExists l (.podcast podcastId) = false) :
    ∃ e : LibraryEntry, v₁.inLibrary l = v.inLibrary l ++ [e] ∧ e.libraryId = l ∧ e.target = .podcast podcastId ∧
      e.position = (earliestPosition (v.podcastChildConflictRows W podcastId targets) l).getD (v.nextPosition l) := by
  obtain ⟨added, rfl, hlibs, hrows⟩ := h.added.added
  have hmem : l ∈ added.map LibraryEntry.libraryId := by
    rw [hlibs]
    exact List.mem_filter.2 ⟨hl, by simp [habsent]⟩
  have hnd : (added.map LibraryEntry.libraryId).Nodup := by
    rw [hlibs]
    exact hnd.filter _
  obtain ⟨e, hin, rfl⟩ := List.mem_map.1 hmem
  refine ⟨e, ?_, rfl, hrows e hin⟩
  rw [Entries.inLibrary_append, inLibrary_of_mem hnd hin]

theorem rowsInOrder_eq (h : Replaces W podcastId defaultLibraryId targets mediaIds v v₁ v₂ v₃ v') {es : Entries}
    (hperm : es.Perm (v₃.inLibrary l)) (hes : es.Pairwise fun a b => a.position < b.position) :
    v'.rowsInOrder l = es.map LibraryEntry.row := by
  rw [h.renumbered.rowsInOrder, Entries.rowsInOrder, Entries.inOrder_eq hperm hes]

/-- **Where the library did not hold it, the podcast stands for its episodes.** -/
theorem placed (h : Replaces W podcastId defaultLibraryId targets mediaIds v v₁ v₂ v₃ v')
    (hd : entryStorage.deferred v = true) (hnd : targets.Nodup) (hdefault : defaultLibraryId ∉ targets) (hl : l ∈ targets)
    (habsent : v.entryExists l (.podcast podcastId) = false) : ∃ id, v'.rowsInOrder l =
      standIn (fun r => W.isEpisode podcastId r.2.2) (id, l, .podcast podcastId) (v.rowsInOrder l) := by
  obtain ⟨e, hv₁, rfl, htarget, hposition⟩ := h.added_entry hnd hl habsent
  have hep : W.isEpisode podcastId e.target = false := by
    rw [htarget]
    rfl
  have hinc : (v.inOrder e.libraryId).Pairwise fun a b => a.position < b.position := Entries.increasing_inOrder hd
  have hperm : (standIn (fun a => W.isEpisode podcastId a.target) e (v.inOrder e.libraryId)).Perm
      (v₃.inLibrary e.libraryId) := by
    have hkept : ((v.inOrder e.libraryId).filter fun a => !W.isEpisode podcastId a.target).Perm
        ((v.inLibrary e.libraryId).filter fun a => !W.isEpisode podcastId a.target) := Entries.perm_inOrder.filter _
    rw [h.inLibrary_target hdefault hl, hv₁, List.filter_append, List.filter_cons_of_pos (by simp [hep]), List.filter_nil]
    exact (perm_standIn.trans (hkept.cons e)).trans (List.perm_append_singleton e _).symm
  have hstand : (standIn (fun a => W.isEpisode podcastId a.target) e (v.inOrder e.libraryId)).Pairwise
      fun a b => a.position < b.position := by
    cases hfirst : earliestPosition (v.podcastChildConflictRows W podcastId targets) e.libraryId with
    | none =>
      rw [hfirst, Option.getD_none] at hposition
      refine increasing_standIn_of_none hinc (fun a ha => Bool.eq_false_iff.2 fun haep => ?_) fun a ha => ?_
      · obtain ⟨hav, hal⟩ := Entries.mem_inOrder.1 ha
        exact Entries.earliest_none hfirst a (Entries.mem_conflicts.2 ⟨hav, hal ▸ hl, haep⟩) hal
      · obtain ⟨hav, hal⟩ := Entries.mem_inOrder.1 ha
        rw [hposition]
        exact Entries.lt_nextPosition hav hal
    | some n =>
      rw [hfirst, Option.getD_some] at hposition
      obtain ⟨⟨c, hc, hcl, hcn⟩, hle⟩ := Entries.earliest_some hfirst
      obtain ⟨hcv, -, hcep⟩ := Entries.mem_conflicts.1 hc
      refine increasing_standIn hinc (Entries.mem_inOrder.2 ⟨hcv, hcl⟩) hcep (hposition.trans hcn.symm) fun a ha haep => ?_
      obtain ⟨hav, hal⟩ := Entries.mem_inOrder.1 ha
      rw [hcn]
      exact hle a (Entries.mem_conflicts.2 ⟨hav, hal ▸ hl, haep⟩) hal
  refine ⟨e.id, ?_⟩
  rw [h.rowsInOrder_eq hperm hstand, Entries.rowsInOrder, ← htarget]
  exact map_standIn LibraryEntry.row fun _ _ => rfl

theorem present (h : Replaces W podcastId defaultLibraryId targets mediaIds v v₁ v₂ v₃ v')
    (hd : entryStorage.deferred v = true) (hdefault : defaultLibraryId ∉ targets) (hl : l ∈ targets)
    (hpresent : v.entryExists l (.podcast podcastId) = true) :
    v'.rowsInOrder l = (v.rowsInOrder l).filter fun r => !W.isEpisode podcastId r.2.2 := by
  have hv₁ : v₁.inLibrary l = v.inLibrary l := by
    obtain ⟨added, rfl, hlibs, -⟩ := h.added.added
    have hnone : l ∉ added.map LibraryEntry.libraryId := by
      rw [hlibs, List.mem_filter]
      simp [hpresent]
    rw [Entries.inLibrary_append, inLibrary_of_not_mem hnone, List.append_nil]
  have hperm : ((v.inOrder l).filter fun a => !W.isEpisode podcastId a.target).Perm (v₃.inLibrary l) := by
    rw [h.inLibrary_target hdefault hl, hv₁]
    exact Entries.perm_inOrder.filter _
  rw [h.rowsInOrder_eq hperm ((Entries.increasing_inOrder hd).filter _), Entries.rowsInOrder, List.filter_map]
  rfl

theorem dense (h : Replaces W podcastId defaultLibraryId targets mediaIds v v₁ v₂ v₃ v') (hl : l ∈ targets)
    (hreplaced : ∃ e ∈ v.inLibrary l, W.isEpisode podcastId e.target = true) :
    (v'.inOrder l).map LibraryEntry.position = List.range (v'.inOrder l).length := by
  obtain ⟨e, he, hep⟩ := hreplaced
  obtain ⟨hev, hel⟩ := Entries.mem_inLibrary.1 he
  have hcount : 0 < episodeCount (v.podcastChildConflictRows W podcastId targets) l := by
    refine List.countP_pos_iff.2 ⟨e, Entries.mem_conflicts.2 ⟨hev, hel ▸ hl, hep⟩, ?_⟩
    simpa using hel
  have hin : l ∈ targets.filter fun l => decide (0 < episodeCount (v.podcastChildConflictRows W podcastId targets) l) :=
    List.mem_filter.2 ⟨hl, by simpa using hcount⟩
  rw [h.renumbered.numbered l hin, Entries.positions_mapIdx, List.length_mapIdx]

theorem kept (h : Replaces W podcastId defaultLibraryId targets mediaIds v v₁ v₂ v₃ v')
    (hdefault : defaultLibraryId ∉ targets) :
    (∀ m ∈ mediaIds, v'.entryExists defaultLibraryId (.media m) = true) ∧
      ∃ saved, v'.inLibrary defaultLibraryId = v.inLibrary defaultLibraryId ++ saved := by
  have hv' := h.inLibrary_other hdefault hdefault
  refine ⟨fun m hm => ?_, ?_⟩
  · rw [Entries.entryExists_eq, hv', ← Entries.entryExists_eq]
    exact h.saved.present m hm
  · obtain ⟨saved, rfl, -⟩ := h.saved.saved
    refine ⟨saved.inLibrary defaultLibraryId, ?_⟩
    rw [hv', Entries.inLibrary_append, h.added.inLibrary hdefault]

theorem elsewhere (h : Replaces W podcastId defaultLibraryId targets mediaIds v v₁ v₂ v₃ v')
    (hdefault : defaultLibraryId ∉ targets) (hl : l ∉ targets) (hne : defaultLibraryId ≠ l) :
    v'.inLibrary l = v.inLibrary l := by
  rw [h.inLibrary_other hdefault hl]
  obtain ⟨saved, rfl, hsaved⟩ := h.saved.saved
  have hnone : saved.inLibrary l = [] := by
    refine inLibrary_of_not_mem fun hin => hne ?_
    obtain ⟨e, he, rfl⟩ := List.mem_map.1 hin
    exact (hsaved e he).symm
  rw [Entries.inLibrary_append, hnone, List.append_nil, h.added.inLibrary hl]

end Replaces

/-! ## The checks -/

theorem gives_govern {α : Type} {y : Except Abort α} {a : α} (h : EntryGives x (govern y) v a v') : y = .ok a ∧ v' = v := by
  obtain ⟨hy, rfl⟩ := Gives.ofExcept h
  refine ⟨?_, rfl⟩
  cases y with
  | ok b => simpa [Except.mapError] using hy
  | error e => simp [Except.mapError] at hy

/-- Destinations resolve to themselves; none is named twice, none is a default
library. -/
theorem gives_resolve {ids : List Uuid} (h : EntryGives x (resolveWritableNonDefaultLibraryIds W viewerId ids) v targets v') :
    v' = v ∧ targets = ids ∧ ids.Nodup ∧ ∀ l ∈ ids, W.isDefault l = false := by
  simp only [resolveWritableNonDefaultLibraryIds] at h
  split at h
  next hnil =>
    obtain ⟨rfl, rfl⟩ := Gives.done h
    simp [hnil]
  next =>
    split at h
    next => exact (Gives.fail h).elim
    next hnd =>
      obtain ⟨_, _, hread, hrest⟩ := Gives.bind h
      obtain ⟨k, rfl, rfl⟩ := Gives.query hread
      obtain ⟨hok, rfl⟩ := gives_govern hrest
      obtain ⟨rfl, hdefault⟩ := resolveDestinations_ok hok
      exact ⟨rfl, rfl, Decidable.not_not.1 hnd, hdefault⟩

theorem gives_defaultLibraryId {d : Uuid} (h : EntryGives x (defaultLibraryIdForUser W viewerId) v d v') :
    v' = v ∧ findDefaultLibraryId W viewerId = .some d ∧ W.isDefault d = true := by
  obtain ⟨rfl, hdefault⟩ := Gives.quiet quiet_defaultLibraryId h
  refine ⟨rfl, ?_, hdefault⟩
  simp only [defaultLibraryIdForUser] at h
  split at h
  next hfind =>
    obtain ⟨rfl, -⟩ := Gives.done h
    exact hfind
  next => exact (Gives.fail h).elim

theorem gives_libraryForMember {ctx : LibraryMembershipContext} (h : EntryGives x (libraryForMember W viewerId l) v ctx v') :
    v' = v ∧ ∃ k, Libraries.lockLibraryForMember (W.db (x k)) viewerId l = .ok ctx := by
  obtain ⟨_, _, hread, hrest⟩ := Gives.bind h
  obtain ⟨k, rfl, rfl⟩ := Gives.query hread
  obtain ⟨hok, rfl⟩ := gives_govern hrest
  exact ⟨rfl, k, hok⟩

theorem gives_requireMutable {ctx : LibraryMembershipContext} {u : Unit} (h : EntryGives x (requireMutable true ctx) v u v') :
    v' = v ∧ ctx.role = .admin ∧ ctx.isDefault = false ∧ ctx.systemKey = .none := by
  obtain ⟨_, _, hgovern₁, hrest⟩ := Gives.bind h
  obtain ⟨hadmin, rfl⟩ := gives_govern hgovern₁
  obtain ⟨_, _, hgovern₂, hgovern₃⟩ := Gives.bind hrest
  obtain ⟨hdefault, rfl⟩ := gives_govern hgovern₂
  obtain ⟨hsystem, rfl⟩ := gives_govern hgovern₃
  refine ⟨rfl, ?_, ?_, ?_⟩
  · by_contra hne
    simp [requireAdmin, hne, refuse] at hadmin
  · cases hd : ctx.isDefault with
    | false => rfl
    | true => simp [requireNonDefault, hd, refuse] at hdefault
  · cases hs : ctx.systemKey with
    | none => rfl
    | some key => simp [requireNotSystem, hs, refuse] at hsystem

theorem gives_contexts {contexts : List LibraryMembershipContext} {u : Unit} {w : Entries}
    (h : EntryGives x (targets.mapM' fun id => libraryForMember W viewerId id) v contexts w)
    (hcheck : EntryGives x (contexts.forM fun ctx => requireMutable true ctx) w u v') :
    w = v ∧ v' = v ∧ ∀ l ∈ targets, ∃ k, W.Manages (x k) viewerId l := by
  have hread := Gives.mapM' (I := fun seen done w => w = v ∧ ∀ l ∈ seen, ∃ ctx ∈ done, ∃ k,
      Libraries.lockLibraryForMember (W.db (x k)) viewerId l = .ok ctx)
    (fun seen done l rest ctx w w' _ hseen hg => by
      obtain ⟨rfl, k, hok⟩ := gives_libraryForMember hg
      refine ⟨hseen.1, fun l' hl' => ?_⟩
      rcases List.mem_append.1 hl' with hl' | hl'
      · obtain ⟨ctx', hctx', hread⟩ := hseen.2 l' hl'
        exact ⟨ctx', List.mem_append_left _ hctx', hread⟩
      · obtain rfl := List.mem_singleton.1 hl'
        exact ⟨ctx, by simp, k, hok⟩) ⟨rfl, by simp⟩ h
  obtain ⟨rfl, hread⟩ := hread
  have hchecked := Gives.forM (I := fun seen v' => v' = w ∧ ∀ ctx ∈ seen, ctx.role = .admin ∧ ctx.isDefault = false ∧
      ctx.systemKey = .none)
    (fun seen ctx rest v v' _ hseen hg => by
      obtain ⟨rfl, hctx⟩ := gives_requireMutable hg
      refine ⟨hseen.1, fun ctx' hctx' => ?_⟩
      rcases List.mem_append.1 hctx' with hctx' | hctx'
      · exact hseen.2 ctx' hctx'
      · obtain rfl := List.mem_singleton.1 hctx'
        exact hctx) ⟨rfl, by simp⟩ hcheck
  refine ⟨rfl, hchecked.1, fun l hl => ?_⟩
  obtain ⟨ctx, hctx, k, hok⟩ := hread l hl
  exact ⟨k, ctx, hok, hchecked.2 ctx hctx⟩

/-- **What a placement that returned leaves.** -/
theorem gives_placePodcast {libraryIds : List Uuid} {confirmation : Option (List Char)} {r : PodcastPlacementResult}
    (hu : entryStorage.unique v = true) (hd : entryStorage.deferred v = true)
    (h : EntryGives x (placePodcastInNamedLibraries W viewerId podcastId libraryIds confirmation) v r v') :
    AfterPlacement W x viewerId podcastId libraryIds confirmation v v' := by
  obtain ⟨targets, _, hresolve, h₁⟩ := Gives.bind h
  obtain ⟨rfl, rfl, hnd, hnamed⟩ := gives_resolve hresolve
  obtain ⟨_, _, hlock, h₂⟩ := Gives.bind h₁
  obtain rfl := Gives.lockRow hlock
  split at h₂
  next => exact (Gives.fail h₂).elim
  obtain ⟨_, _, hread, h₃⟩ := Gives.bind h₂
  obtain ⟨_, rfl, rfl⟩ := Gives.query hread
  obtain ⟨_, _, hmedia, h₄⟩ := Gives.bind h₃
  obtain ⟨rfl, -⟩ := Gives.quiet readsOnly_lockMediaRows hmedia
  split at h₄
  next => exact (Gives.fail h₄).elim
  obtain ⟨d, _, hdefaultId, h₅⟩ := Gives.bind h₄
  obtain ⟨rfl, hfind, hdefault⟩ := gives_defaultLibraryId hdefaultId
  obtain ⟨_, _, hlibraries, h₆⟩ := Gives.bind h₅
  obtain ⟨rfl, -⟩ := Gives.quiet readsOnly_lockLibraryRows hlibraries
  split at h₆
  next => exact (Gives.fail h₆).elim
  obtain ⟨contexts, _, hcontexts, h₇⟩ := Gives.bind h₆
  obtain ⟨_, _, hcheck, h₈⟩ := Gives.bind h₇
  obtain ⟨rfl, rfl, hmanaged⟩ := gives_contexts hcontexts hcheck
  obtain ⟨_, _, hreread, h₉⟩ := Gives.bind h₈
  obtain ⟨_, rfl, rfl⟩ := Gives.query hreread
  split at h₉
  next => exact (Gives.fail h₉).elim
  dsimp only at h₉
  split at h₉
  next => exact (Gives.fail h₉).elim
  next hconfirmed =>
    have hnot : d ∉ targets := fun hin => by simp [hnamed d hin] at hdefault
    obtain ⟨⟨v₁, v₂, v₃, hr⟩, hentitled⟩ := gives_replaceEpisodes hu hnd h₉
    obtain ⟨hkept, hsaved⟩ := hr.kept hnot
    refine ⟨fun hne => ?_, hmanaged, hentitled, fun l hl habsent => hr.placed hd hnd hnot hl habsent,
      fun l hl hpresent => hr.present hd hnot hl hpresent, fun l hl hreplaced => hr.dense hl hreplaced,
      ⟨d, hfind, fun l hl e he hep => ?_, hsaved⟩, fun l hl hne => hr.elsewhere hnot hl fun heq => hne (heq ▸ hfind)⟩
    · by_contra hno
      exact hconfirmed ⟨hne, hno⟩
    · obtain ⟨hev, hel⟩ := Entries.mem_inLibrary.1 he
      cases ht : e.target with
      | podcast p => simp [ht, World.isEpisode] at hep
      | media m => exact hkept m (mem_childMediaIds.2 ⟨e, Entries.mem_conflicts.2 ⟨hev, hel ▸ hl, hep⟩, ht⟩)

/-- **A placement that commits leaves the podcast where its episodes stood, and
one that does not changes no library.** -/
theorem placePodcast_order (W : World) (x : Nat → Env) (viewerId podcastId : Uuid) (libraryIds : List Uuid)
    (confirmation : Option (List Char)) (v v' : Entries) (out : Except (Option EntryFailure) PodcastPlacementResult)
    (hu : entryStorage.unique v = true) (hd : entryStorage.deferred v = true)
    (h : entryStorage.transact x (placePodcastInNamedLibraries W viewerId podcastId libraryIds confirmation) v = (out, v')) :
    (∀ r, out = .ok r → AfterPlacement W x viewerId podcastId libraryIds confirmation v v') ∧
      ∀ e, out = .error e → v' = v := by
  refine ⟨fun r hr => ?_, fun e he => ?_⟩
  · subst hr
    exact gives_placePodcast hu hd (Storage.transact_ok h).1
  · subst he
    exact Storage.transact_error h

/-- Three entries of the named library, its episode between the others. -/
def betweenOthers : Entries := [⟨100, 20, .media 7, 0, 0⟩, ⟨101, 20, .media 3, 0, 1⟩, ⟨102, 20, .media 9, 0, 2⟩]

def placedBetween : Except (Option EntryFailure) PodcastPlacementResult × Entries :=
  entryStorage.transact (fun k => sharedEnv (200 + k))
    (placePodcastInNamedLibraries sharedWorld 1 5 [20] (.some "seen".toList)) betweenOthers

/-- The podcast stands between the others. -/
theorem placePodcast_order_between :
    placedBetween.2.inOrder 20 = [⟨100, 20, .media 7, 0, 0⟩, ⟨208, 20, .podcast 5, 0, 1⟩, ⟨102, 20, .media 9, 0, 2⟩] ∧
      AfterPlacement sharedWorld (fun k => sharedEnv (200 + k)) 1 5 [20] (.some "seen".toList) betweenOthers
        placedBetween.2 := by
  have hunique : entryStorage.unique betweenOthers = true := by decide +kernel
  have hdeferred : entryStorage.deferred betweenOthers = true := by decide +kernel
  have hok : placedBetween.1.isOk = true := by decide +kernel
  have hrun : entryStorage.transact (fun k => sharedEnv (200 + k))
      (placePodcastInNamedLibraries sharedWorld 1 5 [20] (.some "seen".toList)) betweenOthers = placedBetween := by
    rw [placedBetween]
  have h := placePodcast_order sharedWorld (fun k => sharedEnv (200 + k)) 1 5 [20] (.some "seen".toList) betweenOthers
    placedBetween.2 placedBetween.1 hunique hdeferred (hrun.trans (Prod.eta placedBetween).symm)
  refine ⟨by decide +kernel, ?_⟩
  cases hout : placedBetween.1 with
  | ok r => exact h.1 r hout
  | error e =>
    rw [hout] at hok
    cases hok

/-! ## Among the other commands -/

/-- Where no row is locked, the commands' cluster runs a placement that commits
by itself to the tables it leaves. -/
theorem placePodcast_run {S : Cluster Row Entries Env EntryWrite EntryFailure} {t : Nat} {libraryIds : List Uuid}
    {confirmation : Option (List Char)} {r : PodcastPlacementResult} (hfree : S.Free t) (ht : S.running t = .none)
    (hu : entryStorage.unique S.tables = true)
    (h : entryStorage.transact x (placePodcastInNamedLibraries W viewerId podcastId libraryIds confirmation) S.tables =
      (.ok r, v')) : ∃ tr, (entrySystem W).Run S tr ∧ (last S tr).tables = v' := by
  have hunit : entryStorage.transact x (program W (.placePodcastInNamedLibraries viewerId podcastId libraryIds confirmation))
      S.tables = (.ok (), v') := Storage.transact_unit h
  exact Cluster.transact_run hfree ht hu hunit

end Nexus.LibraryEntries
