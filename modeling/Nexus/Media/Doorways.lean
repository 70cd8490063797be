/-
A doorway that claims a document's teardown finds it without a reference, but
for two: an abandoned document still granted to someone, and the removal of a
grant from a document under teardown that has other references.
-/
import Nexus.Media.Removal
import Nexus.Lib.ExceptFacts
import Mathlib.Data.List.Count

namespace Nexus.Media
open Relational ExceptFacts Nexus.Libraries Nexus.LibraryEntries

namespace RemovalFailure

/-- The two defects of a teardown that meets a reference. -/
def MeetsReference (e : RemovalFailure) : Prop := e = .referencesPresent ∨ e = .grantsExcluded

end RemovalFailure

/-! ## Doorways -/

/-- The commands that claim a document's teardown. -/
inductive Doorway
  | remove (viewerId : Uuid)
  | deleteGrant (viewerId grantId : Uuid)
  | deleteDuplicate (winnerMediaId : Uuid)
  | deleteAbandoned
  deriving DecidableEq, Repr

namespace MediaDb

variable (db : MediaDb)

/-- The doorway, at a media; a grant is removed at the media it reaches. -/
def enter (mediaId newId : Uuid) : Doorway → Removal MediaDb
  | .remove viewerId => (db.removeMediaForViewer viewerId mediaId newId).map Prod.fst
  | .deleteGrant viewerId grantId => db.deleteGrant viewerId grantId newId
  | .deleteDuplicate winnerMediaId => db.deleteDuplicateDocumentMedia mediaId winnerMediaId newId
  | .deleteAbandoned => db.deleteAbandonedDocumentMedia mediaId newId

/-- The doorway is one of this media. -/
def At (mediaId : Uuid) : Doorway → Prop
  | .deleteGrant _ grantId => ∃ g, db.grants.find? grantId = .some g ∧ db.reaches mediaId g = true
  | _ => True

/-- The document is left referenced and unclaimed, or claimed without a
reference; a command that fails changes nothing, and fails for another reason
than a reference that a teardown meets. -/
def Settles (mediaId : Uuid) : Removal MediaDb → Prop
  | .ok db' => (db'.totalReferenceCount mediaId ≠ 0 ∧ db'.intentFor mediaId = .none) ∨
      (db'.totalReferenceCount mediaId = 0 ∧ (db'.intentFor mediaId).isSome = true)
  | .error e => ¬ e.MeetsReference

/-- No grant reaches an abandoned document; the document whose grant is removed
is not under teardown, or the grant is its only reference, or not the viewer's. -/
def Clear (mediaId : Uuid) : Doorway → Prop
  | .deleteAbandoned => db.countForMedia mediaId = 0
  | .deleteGrant viewerId grantId => db.intentFor mediaId = .none ∨ db.totalReferenceCount mediaId = 1 ∨
      ∀ g, db.grants.find? grantId = .some g → hasGrantPath viewerId g = false
  | _ => True

end MediaDb

/-! ## What a part of a doorway does to the counts -/

/-- References only go, and a claim that came found none. -/
structure Sheds (mediaId : Uuid) (db db' : MediaDb) : Prop where
  media : db'.media = db.media
  count_le : db'.totalReferenceCount mediaId ≤ db.totalReferenceCount mediaId
  claimed : (db'.intentFor mediaId).isSome = true →
    (db.intentFor mediaId).isSome = true ∨ db'.totalReferenceCount mediaId = 0

section Parts

variable {db db' db'' : MediaDb} {m : Uuid}

theorem Sheds.refl : Sheds m db db := ⟨rfl, le_rfl, .inl⟩

theorem Sheds.trans (h : Sheds m db db') (h' : Sheds m db' db'') : Sheds m db db'' := by
  refine ⟨h'.media.trans h.media, h'.count_le.trans h.count_le, fun hi => ?_⟩
  rcases h'.claimed hi with hi | h0
  · rcases h.claimed hi with hi | h0
    · exact .inl hi
    · have := h'.count_le
      exact .inr (by omega)
  · exact .inr h0

theorem Sheds.of_intents (hm : db'.media = db.media) (hi : db'.intents = db.intents)
    (hc : db'.totalReferenceCount m ≤ db.totalReferenceCount m) : Sheds m db db' :=
  ⟨hm, hc, fun h => .inl (by simpa only [MediaDb.intentFor, hi] using h)⟩

theorem Sheds.isDocument (h : Sheds m db db') : db'.isDocumentMedia m = db.isDocumentMedia m := by
  simp only [MediaDb.isDocumentMedia, h.media]

theorem claim_of_unreferenced (newId : Uuid) (h0 : db.totalReferenceCount m = 0) :
    ∃ db', db.claimMediaTeardown m newId = .ok db' ∧ (db'.intentFor m).isSome = true ∧
      db'.totalReferenceCount m = 0 ∧ db'.media = db.media := by
  unfold MediaDb.claimMediaTeardown
  cases hi : db.intentFor m with
  | some i => exact ⟨db, rfl, by simp [hi], h0, rfl⟩
  | none =>
    simp only [h0, ne_eq, not_true_eq_false, if_false]
    cases hins : db.intents.insert? ⟨m, newId⟩ with
    | none =>
      obtain ⟨b, hb⟩ := Table.insert?_eq_none.1 hins
      simp only [MediaDb.intentFor] at hi
      rw [hi] at hb
      cases hb
    | some intents =>
      refine ⟨_, rfl, ?_, h0, rfl⟩
      have hfind := Table.find?_insert? hins m
      simp only [if_true] at hfind
      simp only [MediaDb.intentFor, hfind, Option.isSome_some]

theorem claim_of_referenced (newId : Uuid) (hc : db.totalReferenceCount m ≠ 0) (hi : db.intentFor m = .none) :
    db.claimMediaTeardown m newId = .error .referencesPresent := by
  simp only [MediaDb.claimMediaTeardown, hi, if_pos hc]

theorem claim_if_unreferenced (newId : Uuid) (hdoc : db.isDocumentMedia m = true) :
    ∃ db', db.claimDocumentTeardownIfUnreferencedLocked m newId = .ok db' ∧ Sheds m db db' ∧
      db'.totalReferenceCount m = db.totalReferenceCount m ∧
      ((db'.intentFor m).isSome = true ↔ (db.intentFor m).isSome = true ∨ db.totalReferenceCount m = 0) := by
  simp only [MediaDb.claimDocumentTeardownIfUnreferencedLocked, hdoc, Bool.not_true, Bool.false_eq_true, false_or]
  by_cases h0 : db.totalReferenceCount m = 0
  · obtain ⟨db', hrun, hclaimed, hzero, hmedia⟩ := claim_of_unreferenced newId h0
    exact ⟨db', by simpa only [h0, ne_eq, not_true_eq_false, if_false] using hrun,
      ⟨hmedia, by omega, fun _ => .inr hzero⟩, by omega, fun _ => .inr h0, fun _ => hclaimed⟩
  · exact ⟨db, by simp only [ne_eq, h0, not_false_eq_true, if_true], .refl, rfl, .inl, fun h => h.resolve_right h0⟩

/-! ### Deletions -/

theorem countForMedia_deleteGrants (p : ResourceGrant → Bool) :
    (db.deleteGrants p).countForMedia m = db.grants.rows.countP fun g => db.reaches m g && !p g := by
  simp only [MediaDb.countForMedia, MediaDb.deleteGrants, Table.deleteWhere, List.countP_filter]
  rfl

theorem sheds_deleteGrants (p : ResourceGrant → Bool) : Sheds m db (db.deleteGrants p) := by
  refine .of_intents rfl rfl ?_
  have hle : (db.deleteGrants p).countForMedia m ≤ db.countForMedia m := by
    rw [countForMedia_deleteGrants]
    exact List.countP_mono_left fun g _ hg => (Bool.and_eq_true_iff.1 hg).1
  have he : (db.deleteGrants p).entries = db.entries := rfl
  simp only [MediaDb.totalReferenceCount, he]
  omega

theorem countForMedia_deleteGrants_reaching : (db.deleteGrants (db.reaches m)).countForMedia m = 0 := by
  rw [countForMedia_deleteGrants, List.countP_eq_zero]
  intro g _
  cases db.reaches m g <;> simp

theorem sheds_deleteEntries (p : LibraryEntry → Bool) : Sheds m db (db.deleteEntries p) := by
  refine .of_intents rfl rfl ?_
  have hle : (db.deleteEntries p).entries.countEntriesForMedia m ≤ db.entries.countEntriesForMedia m :=
    List.filter_sublist.countP_le
  have hg : (db.deleteEntries p).countForMedia m = db.countForMedia m := rfl
  simp only [MediaDb.totalReferenceCount, hg]
  omega

theorem countEntries_deleteEntries : (db.deleteEntries fun e => e.target == .media m).entries.countEntriesForMedia m = 0 := by
  simp only [MediaDb.deleteEntries, Entries.countEntriesForMedia, List.countP_filter, List.countP_eq_zero]
  intro e _
  cases e.target == EntryTarget.media m <;> simp

theorem sheds_deleteHighlight (id : Uuid) : Sheds m db (db.deleteHighlight id) := by
  refine .of_intents rfl rfl ?_
  have hle : (db.deleteHighlight id).countForMedia m ≤ db.countForMedia m := by
    refine List.countP_mono_left fun g _ hg => ?_
    cases hs : g.subject with
    | media k => simpa only [MediaDb.reaches, hs] using hg
    | highlight k =>
      simp only [MediaDb.reaches, hs, Option.any_eq_true] at hg ⊢
      obtain ⟨h, hfind, hanchor⟩ := hg
      obtain ⟨hmem, hid⟩ := Table.find?_eq_some.1 hfind
      exact ⟨h, Table.find?_eq_some.2 ⟨(List.mem_filter.1 hmem).1, hid⟩, hanchor⟩
  have he : (db.deleteHighlight id).entries = db.entries := rfl
  simp only [MediaDb.totalReferenceCount, he]
  omega

theorem sheds_foldl_deleteEntry (ids : List Uuid) :
    Sheds m db (ids.foldl (fun db id => db.deleteEntry id m) db) := by
  induction ids generalizing db with
  | nil => exact .refl
  | cons id ids ih => exact (sheds_deleteEntries _).trans ih

theorem sheds_deleteViewerPaths (viewerId : Uuid) : Sheds m db (db.deleteViewerPaths viewerId m) :=
  (sheds_foldl_deleteEntry _).trans (sheds_deleteGrants _)

/-- A highlight of the document goes, and its grants; the document is claimed
when they were its last references. -/
theorem deleteHighlightRows_sheds {h : Highlight} (newId : Uuid) (hanchor : h.anchorMediaId = .some m)
    (hdoc : db.isDocumentMedia m = true) :
    ∃ db', db.deleteHighlightRows h newId = .ok db' ∧ Sheds m db db' := by
  have hmedia : (db.media.find? m).isNone = false := by
    cases hfind : db.media.find? m with
    | none => simp [MediaDb.isDocumentMedia, hfind] at hdoc
    | some _ => rfl
  simp only [MediaDb.deleteHighlightRows, hanchor, hmedia, Bool.false_eq_true, if_false]
  split
  · exact ⟨db, rfl, .refl⟩
  · have hgone : Sheds m db ((db.deleteGrants fun g => g.subject == .highlight h.id).deleteHighlight h.id) :=
      (sheds_deleteGrants _).trans (sheds_deleteHighlight h.id)
    obtain ⟨db', hrun, hclaim, -⟩ := claim_if_unreferenced newId (hgone.isDocument.trans hdoc)
    exact ⟨db', hrun, hgone.trans hclaim⟩

theorem deleteViewerMediaState_sheds (viewerId newId : Uuid) (hdoc : db.isDocumentMedia m = true) :
    ∃ db', db.deleteViewerMediaState viewerId m newId = .ok db' ∧ Sheds m db db' := by
  have hrun : ∀ (own : List Highlight) (db : MediaDb), (∀ h ∈ own, h.anchorMediaId = .some m) →
      db.isDocumentMedia m = true →
      ∃ db', own.foldlM (fun db h => db.deleteHighlightRows h newId) db = .ok db' ∧ Sheds m db db' := by
    intro own
    induction own with
    | nil => exact fun db _ _ => ⟨db, rfl, .refl⟩
    | cons h own ih =>
      intro db hall hdoc
      obtain ⟨db₁, h₁, hs₁⟩ := deleteHighlightRows_sheds newId (hall h List.mem_cons_self) hdoc
      obtain ⟨db₂, h₂, hs₂⟩ := ih db₁ (fun k hk => hall k (List.mem_cons_of_mem _ hk)) (hs₁.isDocument.trans hdoc)
      exact ⟨db₂, by rw [List.foldlM_cons, h₁]; exact h₂, hs₁.trans hs₂⟩
  refine hrun _ db (fun h hh => ?_) hdoc
  have hmem := (List.mem_insertionSort _).1 hh
  have hown := (Bool.and_eq_true_iff.1 (List.mem_filter.1 hmem).2).2
  simpa using hown

end Parts

/-! ## The doorways -/

section Doorways

variable {db : MediaDb} {m newId : Uuid}

theorem isDocument_of_find {media : MediaRow} (hfind : db.media.find? m = .some media) (hdoc : db.isDocumentMedia m = true) :
    isDocument media.kind = true := by
  simpa only [MediaDb.isDocumentMedia, hfind, Option.any_some] using hdoc

theorem settles_refuse (code : ApiErrorCode) (message : String) : MediaDb.Settles m (refuse code message) := by
  simp [MediaDb.Settles, refuse, RemovalFailure.MeetsReference]

theorem settleRemoval_settles {db₀ : MediaDb} {kind : MediaKind} (viewerId : Uuid) (removed : List Uuid)
    (hi : db₀.intentFor m = .none) (hs : Sheds m db₀ db) (hk : isDocument kind = true) :
    MediaDb.Settles m ((db.settleRemoval viewerId m newId kind removed).map Prod.fst) := by
  have hunclaimed (hc : db.totalReferenceCount m ≠ 0) : db.intentFor m = .none := by
    cases hint : db.intentFor m with
    | none => rfl
    | some i =>
      rcases hs.claimed (by rw [hint]; rfl) with h | h
      · simp [hi] at h
      · exact absurd h hc
  simp only [MediaDb.settleRemoval, hk, and_true]
  by_cases h0 : db.totalReferenceCount m = 0
  · obtain ⟨db', hrun, hclaimed, hzero, -⟩ := claim_of_unreferenced newId h0
    rw [if_pos h0, hrun]
    exact .inr ⟨hzero, hclaimed⟩
  · rw [if_neg h0]
    split
    · exact .inl ⟨h0, hunclaimed h0⟩
    · exact .inl ⟨h0, hunclaimed h0⟩

theorem remove_settles (viewerId : Uuid) (hdoc : db.isDocumentMedia m = true) :
    MediaDb.Settles m (db.enter m newId (.remove viewerId)) := by
  simp only [MediaDb.enter, MediaDb.removeMediaForViewer]
  cases hfind : db.media.find? m with
  | none => exact settles_refuse _ _
  | some media =>
    have hkind := isDocument_of_find hfind hdoc
    by_cases hread : db.canReadMedia viewerId m false = true
    · have hi : db.intentFor m = .none := by
        have := (Bool.and_eq_true_iff.1 hread).2
        simpa using this
      simp only [hread, Bool.not_true, Bool.false_eq_true, if_false]
      split
      · exact settles_refuse _ _
      · have hpaths : Sheds m db (db.deleteViewerPaths viewerId m) := sheds_deleteViewerPaths viewerId
        obtain ⟨db', hrun, hown⟩ := deleteViewerMediaState_sheds viewerId newId (hpaths.isDocument.trans hdoc)
        rw [hrun]
        exact settleRemoval_settles viewerId _ hi (hpaths.trans hown) hkind
    · simp only [hread, Bool.not_false, if_true]
      exact settles_refuse _ _

/-- The claim of a document whose entries go settles exactly when no grant
reaches the document. -/
theorem claimDocument_settles (hdoc : db.isDocumentMedia m = true) :
    MediaDb.Settles m (db.claimDocumentMediaTeardown m newId) ↔ db.countForMedia m = 0 := by
  simp only [MediaDb.claimDocumentMediaTeardown, hdoc, Bool.not_true, Bool.false_eq_true, if_false]
  have hcount : (db.deleteEntries fun e => e.target == .media m).totalReferenceCount m = db.countForMedia m := by
    have hg : (db.deleteEntries fun e => e.target == .media m).countForMedia m = db.countForMedia m := rfl
    simp only [MediaDb.totalReferenceCount, countEntries_deleteEntries, hg]
    omega
  constructor
  · intro hs
    by_contra hne
    have hne' : (db.deleteEntries fun e => e.target == .media m).totalReferenceCount m ≠ 0 := by omega
    cases hi : (db.deleteEntries fun e => e.target == .media m).intentFor m with
    | none =>
      rw [claim_of_referenced newId hne' hi] at hs
      exact hs (.inl rfl)
    | some i =>
      simp only [MediaDb.claimMediaTeardown, hi, MediaDb.Settles] at hs
      rcases hs with ⟨-, hnone⟩ | ⟨hzero, -⟩
      · cases hnone
      · exact hne' hzero
  · intro h0
    obtain ⟨db', hrun, hclaimed, hzero, -⟩ := claim_of_unreferenced newId (hcount.trans h0)
    rw [hrun]
    exact .inr ⟨hzero, hclaimed⟩

theorem deleteDuplicate_settles (winnerMediaId : Uuid) (hdoc : db.isDocumentMedia m = true) :
    MediaDb.Settles m (db.enter m newId (.deleteDuplicate winnerMediaId)) := by
  simp only [MediaDb.enter, MediaDb.deleteDuplicateDocumentMedia]
  split
  · simp [MediaDb.Settles, RemovalFailure.MeetsReference]
  · simp only [MediaDb.deleteMediaAndChildHighlightSubjects]
    refine (claimDocument_settles ?_).2 countForMedia_deleteGrants_reaching
    exact hdoc

theorem lockSubjectRows_of_reaches {g : ResourceGrant} (hreach : db.reaches m g = true) (hdoc : db.isDocumentMedia m = true) :
    db.lockSubjectRows g.subject = .ok m := by
  have hmedia : (db.media.find? m).isNone = false := by
    cases hfind : db.media.find? m with
    | none => simp [MediaDb.isDocumentMedia, hfind] at hdoc
    | some _ => rfl
  unfold MediaDb.reaches at hreach
  cases hsub : g.subject with
  | media id =>
    simp only [hsub, beq_iff_eq] at hreach
    subst hreach
    simp only [MediaDb.lockSubjectRows, hmedia, Bool.false_eq_true, if_false]
  | highlight id =>
    simp only [hsub, Option.any_eq_true, beq_iff_eq] at hreach
    obtain ⟨h, hfind, hanchor⟩ := hreach
    simp only [MediaDb.lockSubjectRows, hfind, Option.bind_some, hanchor, hmedia, Bool.false_eq_true, if_false]

theorem totalReferenceCount_deleteGrant {g : ResourceGrant} (hfind : db.grants.find? g.id = .some g)
    (hreach : db.reaches m g = true) :
    (db.deleteGrants fun k => k.id == g.id).totalReferenceCount m + 1 = db.totalReferenceCount m := by
  have hmem := (Table.find?_eq_some.1 hfind).1
  have hone : db.grants.rows.countP (fun k => db.reaches m k && (k.id == g.id)) = 1 := by
    have heq : db.grants.rows.countP (fun k => db.reaches m k && (k.id == g.id)) = db.grants.rows.count g := by
      refine List.countP_congr fun k hk => ?_
      constructor
      · intro h
        have hid := (Bool.and_eq_true_iff.1 h).2
        simpa using Table.eq_of_key hk hmem (by simpa using hid)
      · intro h
        obtain rfl : k = g := by simpa using h
        simp [hreach]
    rw [heq, List.count_eq_one_of_mem db.grants.rows_nodup hmem]
  have hsplit : db.countForMedia m = (db.deleteGrants fun k => k.id == g.id).countForMedia m + 1 := by
    rw [MediaDb.countForMedia, List.countP_eq_countP_filter_add _ _ fun k => k.id == g.id, List.countP_filter, hone,
      countForMedia_deleteGrants, List.countP_filter]
    simp only [Nat.add_comm]
  have he : (db.deleteGrants fun k => k.id == g.id).entries = db.entries := rfl
  simp only [MediaDb.totalReferenceCount, he]
  omega

theorem deleteGrant_settles {viewerId grantId : Uuid} (hat : db.At m (.deleteGrant viewerId grantId))
    (hdoc : db.isDocumentMedia m = true) :
    MediaDb.Settles m (db.enter m newId (.deleteGrant viewerId grantId)) ↔ db.Clear m (.deleteGrant viewerId grantId) := by
  obtain ⟨g, hfind, hreach⟩ := hat
  obtain rfl := (Table.find?_eq_some.1 hfind).2
  have hcount := totalReferenceCount_deleteGrant hfind hreach
  have hint : (db.deleteGrants fun k => k.id == g.id).intentFor m = db.intentFor m := rfl
  have hrun : db.enter m newId (.deleteGrant viewerId g.id) = if !MediaDb.hasGrantPath viewerId g then
        refuse .notFound "Resource grant not found"
      else (db.deleteGrants fun k => k.id == g.id).claimDocumentTeardownIfUnreferencedLocked m newId := by
    simp only [MediaDb.enter, MediaDb.deleteGrant, hfind, lockSubjectRows_of_reaches hreach hdoc]
    rfl
  rw [hrun]
  by_cases hpath : MediaDb.hasGrantPath viewerId g = true
  · simp only [hpath, Bool.not_true, Bool.false_eq_true, if_false]
    have hdoc' : (db.deleteGrants fun k => k.id == g.id).isDocumentMedia m = true := hdoc
    obtain ⟨db', hclaim, -, hsame, hclaimed⟩ := claim_if_unreferenced newId hdoc'
    rw [hint] at hclaimed
    rw [hclaim]
    constructor
    · rintro (⟨-, hnone⟩ | ⟨h0, -⟩)
      · refine .inl (Option.not_isSome_iff_eq_none.1 fun hi => ?_)
        have hkept := hclaimed.2 (.inl hi)
        rw [hnone] at hkept
        cases hkept
      · exact .inr (.inl (by omega))
    · rintro (hnone | hone | hforeign)
      · by_cases h0 : (db.deleteGrants fun k => k.id == g.id).totalReferenceCount m = 0
        · exact .inr ⟨by omega, hclaimed.2 (.inr h0)⟩
        · refine .inl ⟨by omega, Option.not_isSome_iff_eq_none.1 fun hi => ?_⟩
          rcases hclaimed.1 hi with hi | hz
          · simp [hnone] at hi
          · exact h0 hz
      · exact .inr ⟨by omega, hclaimed.2 (.inr (by omega))⟩
      · rw [hforeign g hfind] at hpath
        exact absurd hpath Bool.false_ne_true
  · simp only [hpath, Bool.not_false, if_true]
    refine ⟨fun _ => .inr (.inr fun k hk => ?_), fun _ => settles_refuse _ _⟩
    rw [hfind] at hk
    cases hk
    simpa using hpath

theorem deletion_counts_grants : db.deleteDocumentMediaIfUnreferenced m ≠ .error .grantsExcluded := by
  unfold MediaDb.deleteDocumentMediaIfUnreferenced
  split
  · nofun
  next hreferenced =>
    have h0 : db.countForMedia m = 0 := by
      simp only [MediaDb.totalReferenceCount] at hreferenced
      omega
    simp [MediaDb.deleteMediaAndChildHighlightSubjects, h0]

/-- **A doorway settles a document exactly when it is clear**: in every state,
a removal and a duplicate's deletion always do, an abandoned document is
settled when no grant reaches it, and the removal of a grant settles a document
unless it is under teardown and keeps other references. No deletion meets a
grant that its count left out. -/
theorem doorways_settle (db : MediaDb) (m newId : Uuid) (d : Doorway) (hdoc : db.isDocumentMedia m = true)
    (hat : db.At m d) :
    (MediaDb.Settles m (db.enter m newId d) ↔ db.Clear m d) ∧
      db.deleteDocumentMediaIfUnreferenced m ≠ .error .grantsExcluded := by
  refine ⟨?_, deletion_counts_grants⟩
  cases d with
  | remove viewerId => exact ⟨fun _ => trivial, fun _ => remove_settles viewerId hdoc⟩
  | deleteGrant viewerId grantId => exact deleteGrant_settles hat hdoc
  | deleteDuplicate winnerMediaId => exact ⟨fun _ => trivial, fun _ => deleteDuplicate_settles winnerMediaId hdoc⟩
  | deleteAbandoned => exact claimDocument_settles hdoc

end Doorways

/-! ### A shared upload that is abandoned -/

/-- The creator's default library holds one document, whose file has not come yet. -/
def pendingUpload : MediaDb where
  media := ⟨[⟨10, .pdf⟩], by decide⟩
  entries := [⟨30, 20, .media 10, 0, 0⟩]
  highlights := .empty
  grants := .empty
  intents := .empty
  teardownJobs := []
  tombstones := []
  governance :=
    { users := ⟨⟨[], by decide⟩, by simp, by simp⟩
      libraries := ⟨⟨[⟨20, 1, ['L'], .none, true, .none, 0, 0⟩], by decide⟩, by decide, by decide⟩
      memberships := ⟨[⟨20, 1, .admin, 0⟩], by decide⟩
      invitations := ⟨⟨[], by decide⟩, by simp, by simp⟩ }

/-- The creator may share it, and the other user exists. -/
def sharing : MediaDb.GrantEnv := ⟨true, true, true, .none, 40, 1⟩

/-- The document is shared with the other user, then abandoned. -/
def abandonShared : Removal MediaDb := do
  let (db, _) ← pendingUpload.createGrant sharing 1 (.media 10) (.user 2)
  db.enter 10 50 .deleteAbandoned

/-- The grant is made, and the claim meets it. -/
theorem abandonShared_meets_reference :
    pendingUpload.isDocumentMedia 10 = true ∧ pendingUpload.intentFor 10 = .none ∧
      abandonShared = .error .referencesPresent ∧ ¬ MediaDb.Settles 10 abandonShared := by
  have hfails : abandonShared = .error .referencesPresent := by rfl
  refine ⟨by decide +kernel, by decide +kernel, hfails, ?_⟩
  rw [hfails]
  exact fun hs => hs (.inl rfl)

/-- A document nobody shared is clear to be abandoned. -/
theorem doorways_settle_abandoned :
    MediaDb.Settles 10 (pendingUpload.enter 10 50 .deleteAbandoned) :=
  (doorways_settle pendingUpload 10 50 .deleteAbandoned (by decide +kernel) trivial).1.2
    (show pendingUpload.countForMedia 10 = 0 by decide +kernel)

end Nexus.Media
