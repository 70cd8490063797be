/-
Grants under a dedupe of two media: `services/resource_grants.py`.

A grant's row stores an audience in one of two shapes, a user or a bearer link,
and a row of neither shape stops the command. The rows on the two media are
read oldest first and gathered by creator and audience. Of each group the first
row stays, pointed at the winner, and the others are deleted.

Notifications to the affected users' collections are not told.
-/
import Nexus.Handles.SealedHandles
import Nexus.Graph.Edges
import Nexus.Lib.ExceptFacts
import Nexus.Lib.GroupBy
import Nexus.Lib.Table
import Mathlib.Data.List.Sort

namespace Nexus.Sharing
open Relational ExceptFacts Nexus.Graph Nexus.Handles

/-! ## Rows and records -/

/-- A row of `resource_grants`. -/
structure ResourceGrant where
  id : Uuid
  subjectScheme : Text
  subjectId : Uuid
  createdByUserId : Uuid
  granteeUserId : Option Uuid
  shareToken : Option Text
  shareTokenHash : Option Bytes
  createdAt : Instant
  deriving DecidableEq, Repr

abbrev Grants := Table ResourceGrant ResourceGrant.id

inductive GrantAudience
  | user (userId : Uuid)
  | link
  deriving DecidableEq, Repr

structure ResourceGrantRecord where
  grantId : Uuid
  subject : ResourceRef
  creatorId : Uuid
  audience : GrantAudience
  shareToken : Option Text
  createdAt : Instant
  deriving DecidableEq, Repr

inductive GrantDefect
  | invalidResourceRef (scheme : Text)
  | invalidShareToken
  /-- "resource grant link verifier does not match its token" -/
  | verifierMismatch
  /-- "resource grant has an impossible audience branch" -/
  | impossibleAudience
  deriving DecidableEq, Repr

def shareTokenBytes : Nat := 32

def shareTokenChars : Nat := 43

def shareTokenWord : Text := "nxshr1_".toList

def shareTokenHashPrefix : Bytes := ascii "nexus-share-token\x00v1\x00"

/-- `_SHARE_TOKEN_RE.fullmatch` -/
def shareTokenRe (raw : Text) : Bool :=
  raw.take shareTokenWord.length == shareTokenWord && (raw.drop shareTokenWord.length).length == shareTokenChars &&
    (raw.drop shareTokenWord.length).all Base64Url.inAlphabet

def parseShareToken (raw : Text) : Option Text :=
  if !shareTokenRe raw then .none
  else (decodeCanonicalB64url (raw.drop shareTokenWord.length) shareTokenBytes).map fun _ => raw

/-- The text of a uuid always reads back, so only the scheme is checked. -/
def subjectFromParts (scheme : Text) (subjectId : Uuid) : Except GrantDefect ResourceRef :=
  match ResourceScheme.all.find? fun s => s.value == scheme with
  | .some s => .ok ⟨s, subjectId⟩
  | .none => .error (.invalidResourceRef scheme)

section Hashed

-- `hashlib.sha256(message).digest()`
variable (sha256 : Bytes → Bytes)

def shareTokenHash (token : Text) : Bytes :=
  sha256 (shareTokenHashPrefix ++ token.map fun c => UInt8.ofNat c.toNat)

def recordFromRow (row : ResourceGrant) : Except GrantDefect ResourceGrantRecord := do
  let subject ← subjectFromParts row.subjectScheme row.subjectId
  match row.granteeUserId, row.shareToken, row.shareTokenHash with
  | .some userId, .none, .none => return ⟨row.id, subject, row.createdByUserId, .user userId, .none, row.createdAt⟩
  | .none, .some rawToken, .some storedHash =>
    match parseShareToken rawToken with
    | .none => throw .invalidShareToken
    | .some token =>
      if storedHash.length ≠ 32 ∨ storedHash ≠ shareTokenHash sha256 token then throw .verifierMismatch
      else return ⟨row.id, subject, row.createdByUserId, .link, .some token, row.createdAt⟩
  | _, _, _ => throw .impossibleAudience

/-! ## The repoint -/

/-- `subject_scheme = 'media' AND subject_id = :media_id` -/
def ResourceGrant.onMedia (row : ResourceGrant) (mediaId : Uuid) : Bool :=
  row.subjectScheme == ResourceScheme.media.value && row.subjectId == mediaId

/-- `subject_scheme = 'media' AND subject_id IN (:loser, :winner)` -/
def ResourceGrant.onEither (loserMediaId winnerMediaId : Uuid) (row : ResourceGrant) : Bool :=
  row.subjectScheme == ResourceScheme.media.value && (row.subjectId == loserMediaId || row.subjectId == winnerMediaId)

/-- `ORDER BY created_at, id` -/
def ResourceGrant.Older (a b : ResourceGrant) : Prop :=
  a.createdAt < b.createdAt ∨ a.createdAt = b.createdAt ∧ a.id ≤ b.id

instance : DecidableRel ResourceGrant.Older := fun a b =>
  inferInstanceAs (Decidable (a.createdAt < b.createdAt ∨ a.createdAt = b.createdAt ∧ a.id ≤ b.id))

/-- The row pointed at another media. -/
def ResourceGrant.pointedAt (mediaId : Uuid) (row : ResourceGrant) : ResourceGrant := { row with subjectId := mediaId }

/-- The users a change of the row affects. -/
def ResourceGrant.users (row : ResourceGrant) : List Uuid := row.createdByUserId :: row.granteeUserId.toList

/-- The table under a repoint, with its counter and its set of users. -/
structure Repoint where
  grants : Grants
  changed : Nat
  affectedUsers : List Uuid

def Repoint.deleteDuplicate (s : Repoint) (duplicate : ResourceGrant) : Repoint :=
  ⟨s.grants.deleteWhere (·.id == duplicate.id), s.changed + 1, s.affectedUsers ++ duplicate.users⟩

def Repoint.moveSurvivor (winnerMediaId : Uuid) (s : Repoint) (survivor : ResourceGrant) : Repoint :=
  ⟨s.grants.updateWhere (·.id == survivor.id) (·.pointedAt winnerMediaId), s.changed + 1,
    s.affectedUsers ++ survivor.users⟩

/-- `survivor, *duplicates = group` and the body of the loop. -/
def Repoint.group (loserMediaId winnerMediaId : Uuid) (s : Repoint) : List ResourceGrant → Repoint
  | [] => s
  | survivor :: duplicates =>
    let s := duplicates.foldl Repoint.deleteDuplicate s
    if survivor.subjectId = loserMediaId then s.moveSurvivor winnerMediaId survivor else s

/-- The rows on either media in the order they are read. -/
def selectedRows (loserMediaId winnerMediaId : Uuid) (grants : Grants) : List ResourceGrant :=
  (grants.rows.filter (ResourceGrant.onEither loserMediaId winnerMediaId)).insertionSort ResourceGrant.Older

/-- `(record.creator_id, "User", record.audience.user_id)`, or `(record.creator_id, "Link", None)` -/
def ResourceGrantRecord.groupKey (record : ResourceGrantRecord) : Uuid × GrantAudience :=
  (record.creatorId, record.audience)

def repointMediaSubjects (loserMediaId winnerMediaId : Uuid) (grants : Grants) : Except GrantDefect Repoint := do
  let keyed ← (selectedRows loserMediaId winnerMediaId grants).mapM fun row => do
    let record ← recordFromRow sha256 row
    return (record.groupKey, row)
  let groups := (Sql.groups Prod.fst keyed).map fun g => g.2.map Prod.snd
  return groups.foldl (Repoint.group loserMediaId winnerMediaId) ⟨grants, 0, []⟩

end Hashed

/-! ## Groups -/

/-- The path a row keeps open: its creator and its audience. -/
def ResourceGrant.path (row : ResourceGrant) : Uuid × GrantAudience :=
  (row.createdByUserId, row.granteeUserId.elim .link .user)

theorem groupKey_of_row {sha256 : Bytes → Bytes} {row : ResourceGrant} {record : ResourceGrantRecord}
    (h : recordFromRow sha256 row = .ok record) : record.groupKey = row.path := by
  obtain ⟨subject, -, h⟩ := bind_eq_ok.1 h
  rw [ResourceGrant.path]
  split at h
  next userId hu _ _ =>
    cases h
    rw [hu]
    rfl
  next rawToken storedHash hu _ _ =>
    split at h
    · cases h
    · obtain ⟨-, h⟩ := check_eq_ok.1 h
      cases h
      rw [hu]
      rfl
  next => cases h

theorem repointMediaSubjects_eq {sha256 : Bytes → Bytes} {loser winner : Uuid} {grants : Grants}
    (h : ∀ row ∈ selectedRows loser winner grants, ∃ record, recordFromRow sha256 row = .ok record) :
    repointMediaSubjects sha256 loser winner grants =
      .ok (((Sql.groups ResourceGrant.path (selectedRows loser winner grants)).map Prod.snd).foldl
        (Repoint.group loser winner) ⟨grants, 0, []⟩) := by
  have hkeyed : (selectedRows loser winner grants).mapM (fun row => do
      let record ← recordFromRow sha256 row
      return (record.groupKey, row)) = .ok ((selectedRows loser winner grants).map fun row => (row.path, row)) := by
    rw [mapM_eq_ok, List.forall₂_map_right_iff, List.forall₂_same]
    intro row hrow
    obtain ⟨record, hrecord⟩ := h row hrow
    rw [hrecord, ← groupKey_of_row hrecord]
    rfl
  have hgroups : ((Sql.groups Prod.fst ((selectedRows loser winner grants).map fun row => (row.path, row))).map
      fun g => g.2.map Prod.snd) = (Sql.groups ResourceGrant.path (selectedRows loser winner grants)).map Prod.snd := by
    rw [Sql.groups_map, List.map_map]
    refine List.map_congr_left fun g _ => ?_
    simp [Function.comp_def]
  rw [repointMediaSubjects, hkeyed, ← hgroups]
  rfl

theorem ResourceGrant.older_total (a b : ResourceGrant) : a.Older b ∨ b.Older a := by
  unfold Older
  unfold Instant Uuid at *
  omega

theorem ResourceGrant.Older.trans {a b c : ResourceGrant} (hab : a.Older b) (hbc : b.Older c) : a.Older c := by
  unfold Older at *
  unfold Instant Uuid at *
  omega

theorem ResourceGrant.Older.antisymm {a b : ResourceGrant} (hab : a.Older b) (hba : b.Older a) : a.id = b.id := by
  unfold Older at hab hba
  unfold Instant Uuid at *
  omega

theorem mem_selectedRows {loser winner : Uuid} {grants : Grants} {row : ResourceGrant} :
    row ∈ selectedRows loser winner grants ↔ row ∈ grants.rows ∧ row.onEither loser winner = true := by
  rw [selectedRows, List.mem_insertionSort, List.mem_filter]

theorem pairwise_selectedRows (loser winner : Uuid) (grants : Grants) :
    (selectedRows loser winner grants).Pairwise ResourceGrant.Older := by
  have : Std.Total ResourceGrant.Older := ⟨ResourceGrant.older_total⟩
  have : IsTrans ResourceGrant ResourceGrant.Older := ⟨fun _ _ _ => ResourceGrant.Older.trans⟩
  exact List.pairwise_insertionSort _ _

theorem nodup_selectedRows (loser winner : Uuid) (grants : Grants) : (selectedRows loser winner grants).Nodup :=
  (List.perm_insertionSort _ _).nodup_iff.2 (grants.rows_nodup.filter _)

/-- The rows a dedupe keeps: of each path the oldest on either media. -/
structure Survives (loser winner : Uuid) (grants : Grants) (row : ResourceGrant) : Prop where
  mem : row ∈ grants.rows
  on_either : row.onEither loser winner = true
  oldest : ∀ other ∈ grants.rows, other.onEither loser winner = true → other.path = row.path → row.Older other

theorem group_shape {loser winner : Uuid} {grants : Grants} {g : ResourceGrant × List ResourceGrant}
    (hg : g ∈ Sql.groups ResourceGrant.path (selectedRows loser winner grants)) :
    ∃ duplicates, g.2 = g.1 :: duplicates ∧ g.1 ∉ duplicates ∧ Survives loser winner grants g.1 ∧
      ∀ d ∈ duplicates, ¬ Survives loser winner grants d := by
  have hhead := Sql.head?_group hg
  obtain ⟨duplicates, hshape⟩ : ∃ duplicates, g.2 = g.1 :: duplicates := by
    cases hrows : g.2 with
    | nil => rw [hrows] at hhead; cases hhead
    | cons row duplicates =>
      rw [hrows] at hhead
      cases hhead
      exact ⟨duplicates, rfl⟩
  have hrows : g.2 = (selectedRows loser winner grants).filter fun b => b.path = g.1.path := (Sql.mem_groups.1 hg).2
  have hnd : (g.1 :: duplicates).Nodup := by
    rw [← hshape, hrows]
    exact (nodup_selectedRows _ _ _).filter _
  have hsorted : (g.1 :: duplicates).Pairwise ResourceGrant.Older := by
    rw [← hshape, hrows]
    exact (pairwise_selectedRows _ _ _).filter _
  have hmem : ∀ {row}, row ∈ g.1 :: duplicates ↔
      (row ∈ grants.rows ∧ row.onEither loser winner = true) ∧ row.path = g.1.path := by
    intro row
    rw [← hshape, Sql.mem_group_iff hg, mem_selectedRows]
  obtain ⟨⟨hfirst, heither⟩, -⟩ := hmem.1 List.mem_cons_self
  have hself : g.1.Older g.1 := (ResourceGrant.older_total g.1 g.1).elim id id
  refine ⟨duplicates, hshape, (List.nodup_cons.1 hnd).1, ⟨hfirst, heither, ?_⟩, ?_⟩
  · intro other hother hon hpath
    rcases List.mem_cons.1 (hmem.2 ⟨⟨hother, hon⟩, hpath⟩) with rfl | hdup
    · exact hself
    · exact List.rel_of_pairwise_cons hsorted hdup
  · intro d hd hsurvives
    obtain ⟨⟨hdmem, -⟩, hpath⟩ := hmem.1 (List.mem_cons_of_mem _ hd)
    have hback := hsurvives.oldest g.1 hfirst heither hpath.symm
    have heq := Table.eq_of_key hfirst hdmem ((List.rel_of_pairwise_cons hsorted hd).antisymm hback)
    exact (List.nodup_cons.1 hnd).1 (heq ▸ hd)

/-! ## The loop -/

theorem mem_deleteDuplicates {duplicates : List ResourceGrant} {s : Repoint} {row : ResourceGrant} :
    row ∈ (duplicates.foldl Repoint.deleteDuplicate s).grants.rows ↔
      row ∈ s.grants.rows ∧ ∀ d ∈ duplicates, row.id ≠ d.id := by
  induction duplicates generalizing s with
  | nil => simp
  | cons d duplicates ih =>
    rw [List.foldl_cons, ih, List.forall_mem_cons]
    simp only [Repoint.deleteDuplicate, Table.mem_deleteWhere, beq_eq_false_iff_ne]
    tauto

theorem mem_moveSurvivor {winner : Uuid} {s : Repoint} {survivor row : ResourceGrant} :
    row ∈ (s.moveSurvivor winner survivor).grants.rows ↔
      ∃ old ∈ s.grants.rows, (if old.id == survivor.id then old.pointedAt winner else old) = row := List.mem_map

/-- The row is a survivor on the loser. -/
def Moves (loser : Uuid) (groups : List (List ResourceGrant)) (row : ResourceGrant) : Prop :=
  ∃ g ∈ groups, ∃ survivor, g.head? = .some survivor ∧ survivor.id = row.id ∧ survivor.subjectId = loser

def Dropped (groups : List (List ResourceGrant)) (row : ResourceGrant) : Prop := ∃ g ∈ groups, ∃ d ∈ g.tail, d.id = row.id

theorem mem_group {loser winner : Uuid} {s : Repoint} {g : List ResourceGrant} {row : ResourceGrant} :
    row ∈ (s.group loser winner g).grants.rows ↔
      ∃ old ∈ s.grants.rows, ¬ Dropped [g] old ∧
        (Moves loser [g] old ∧ row = old.pointedAt winner ∨ ¬ Moves loser [g] old ∧ row = old) := by
  cases g with
  | nil => simp [Repoint.group, Dropped, Moves]
  | cons survivor duplicates =>
    have hdropped : ∀ old : ResourceGrant, ¬ Dropped [survivor :: duplicates] old ↔ ∀ d ∈ duplicates, old.id ≠ d.id := by
      intro old
      simp only [Dropped, List.mem_singleton, exists_eq_left, List.tail_cons, not_exists, not_and, ne_eq, eq_comm]
    have hmoves : ∀ old : ResourceGrant, Moves loser [survivor :: duplicates] old ↔
        survivor.id = old.id ∧ survivor.subjectId = loser := by
      intro old
      simp [Moves]
    simp only [hdropped, hmoves, Repoint.group]
    by_cases hloser : survivor.subjectId = loser
    · rw [if_pos hloser, mem_moveSurvivor]
      simp only [mem_deleteDuplicates, hloser, and_true]
      constructor
      · rintro ⟨old, ⟨hmem, hkept⟩, rfl⟩
        refine ⟨old, hmem, hkept, ?_⟩
        by_cases hid : survivor.id = old.id
        · left; simp [hid]
        · right; simp [hid, Ne.symm hid]
      · rintro ⟨old, hmem, hkept, ⟨hid, rfl⟩ | ⟨hid, rfl⟩⟩
        · exact ⟨old, ⟨hmem, hkept⟩, by simp [hid]⟩
        · exact ⟨row, ⟨hmem, hkept⟩, by simp [Ne.symm hid]⟩
    · rw [if_neg hloser, mem_deleteDuplicates]
      simp [hloser]

theorem dropped_pointedAt {winner : Uuid} {groups : List (List ResourceGrant)} {row : ResourceGrant} :
    Dropped groups (row.pointedAt winner) ↔ Dropped groups row := Iff.rfl

theorem mem_groups {loser winner : Uuid} {groups : List (List ResourceGrant)} {s : Repoint} {row : ResourceGrant} :
    row ∈ (groups.foldl (Repoint.group loser winner) s).grants.rows ↔
      ∃ old ∈ s.grants.rows, ¬ Dropped groups old ∧
        (Moves loser groups old ∧ row = old.pointedAt winner ∨ ¬ Moves loser groups old ∧ row = old) := by
  induction groups generalizing s with
  | nil => simp [Dropped, Moves]
  | cons g groups ih =>
    have hdropped : ∀ old : ResourceGrant, Dropped (g :: groups) old ↔ Dropped [g] old ∨ Dropped groups old := by
      intro old
      simp [Dropped]
    have hmoves : ∀ old : ResourceGrant, Moves loser (g :: groups) old ↔ Moves loser [g] old ∨ Moves loser groups old := by
      intro old
      simp [Moves]
    rw [List.foldl_cons, ih]
    simp only [mem_group, hdropped, hmoves]
    constructor
    · rintro ⟨mid, ⟨old, hold, hkept, ⟨hm, rfl⟩ | ⟨hm, rfl⟩⟩, hkept', hlast⟩
      · rw [dropped_pointedAt] at hkept'
        refine ⟨old, hold, fun h => h.elim hkept hkept', .inl ⟨.inl hm, ?_⟩⟩
        rcases hlast with ⟨-, rfl⟩ | ⟨-, rfl⟩ <;> rfl
      · exact ⟨mid, hold, fun h => h.elim hkept hkept', hlast.imp (And.imp_left .inr)
          (And.imp_left fun h' h => h.elim hm h')⟩
    · rintro ⟨old, hold, hkept, hlast⟩
      rw [not_or] at hkept
      by_cases hm : Moves loser [g] old
      · refine ⟨old.pointedAt winner, ⟨old, hold, hkept.1, .inl ⟨hm, rfl⟩⟩, hkept.2, ?_⟩
        rcases hlast with ⟨-, rfl⟩ | ⟨hno, -⟩
        · by_cases hm' : Moves loser groups old
          · exact .inl ⟨hm', rfl⟩
          · exact .inr ⟨hm', rfl⟩
        · exact absurd (.inl hm) hno
      · refine ⟨old, ⟨old, hold, hkept.1, .inr ⟨hm, rfl⟩⟩, hkept.2, ?_⟩
        exact hlast.imp (And.imp_left fun h => h.resolve_left hm) (And.imp_left fun h h' => h (.inr h'))

section Result

variable {sha256 : Bytes → Bytes} {loser winner : Uuid} {grants : Grants}

theorem onEither_iff {row : ResourceGrant} :
    row.onEither loser winner = true ↔ row.onMedia loser = true ∨ row.onMedia winner = true := by
  simp only [ResourceGrant.onEither, ResourceGrant.onMedia, Bool.and_eq_true, Bool.or_eq_true]
  tauto

theorem onMedia_pointedAt {row : ResourceGrant} (h : row.onEither loser winner = true) (mediaId : Uuid) :
    (row.pointedAt winner).onMedia mediaId = decide (winner = mediaId) := by
  simp only [ResourceGrant.onEither, Bool.and_eq_true] at h
  simp only [ResourceGrant.onMedia, ResourceGrant.pointedAt, h.1, Bool.true_and]
  rfl

theorem pointedAt_of_winner {row : ResourceGrant} (h : row.onEither loser winner = true) (hne : row.subjectId ≠ loser) :
    row.pointedAt winner = row := by
  simp only [ResourceGrant.onEither, Bool.and_eq_true, Bool.or_eq_true, beq_iff_eq] at h
  rw [ResourceGrant.pointedAt, ← h.2.resolve_left hne]

theorem survivor_of_path {row : ResourceGrant} (hrow : row ∈ grants.rows) (hon : row.onEither loser winner = true) :
    ∃ survivor, Survives loser winner grants survivor ∧ survivor.path = row.path := by
  obtain ⟨g, hg, hmem⟩ := Sql.exists_group ResourceGrant.path (mem_selectedRows.2 ⟨hrow, hon⟩)
  obtain ⟨duplicates, -, -, hsurvives, -⟩ := group_shape hg
  exact ⟨g.1, hsurvives, ((Sql.mem_group_iff hg).1 hmem).2.symm⟩

theorem Survives.unique {a b : ResourceGrant} (ha : Survives loser winner grants a) (hb : Survives loser winner grants b)
    (h : a.path = b.path) : a = b :=
  Table.eq_of_key ha.mem hb.mem
    ((ha.oldest b hb.mem hb.on_either h.symm).antisymm (hb.oldest a ha.mem ha.on_either h))

theorem mem_repointed {s : Repoint}
    (hs : s = ((Sql.groups ResourceGrant.path (selectedRows loser winner grants)).map Prod.snd).foldl
      (Repoint.group loser winner) ⟨grants, 0, []⟩) {row : ResourceGrant} :
    row ∈ s.grants.rows ↔ row ∈ grants.rows ∧ row.onEither loser winner = false ∨
      ∃ old, Survives loser winner grants old ∧ row = old.pointedAt winner := by
  have hselected : ∀ {g old : ResourceGrant} {rows : List ResourceGrant},
      (g, rows) ∈ Sql.groups ResourceGrant.path (selectedRows loser winner grants) → ∀ d ∈ rows, old ∈ grants.rows →
        d.id = old.id → d = old := by
    intro g old rows hg d hd hold hid
    exact Table.eq_of_key (mem_selectedRows.1 ((Sql.mem_group_iff hg).1 hd).1).1 hold hid
  have hdropped : ∀ old ∈ grants.rows,
      (Dropped ((Sql.groups ResourceGrant.path (selectedRows loser winner grants)).map Prod.snd) old ↔
        old.onEither loser winner = true ∧ ¬ Survives loser winner grants old) := by
    intro old hold
    constructor
    · rintro ⟨rows, hrows, d, hd, hid⟩
      obtain ⟨⟨first, rows⟩, hg, rfl⟩ := List.mem_map.1 hrows
      obtain ⟨duplicates, hshape, -, -, hnone⟩ := group_shape hg
      obtain rfl := hselected hg d (List.mem_of_mem_tail hd) hold hid
      refine ⟨(mem_selectedRows.1 ((Sql.mem_group_iff hg).1 (List.mem_of_mem_tail hd)).1).2, hnone d ?_⟩
      dsimp only at hshape hd
      rwa [hshape] at hd
    · rintro ⟨hon, hno⟩
      obtain ⟨g, hg, hmem⟩ := Sql.exists_group ResourceGrant.path (mem_selectedRows.2 ⟨hold, hon⟩)
      obtain ⟨duplicates, hshape, -, hsurvives, -⟩ := group_shape hg
      refine ⟨g.2, List.mem_map_of_mem hg, old, ?_, rfl⟩
      rw [hshape] at hmem ⊢
      rcases List.mem_cons.1 hmem with rfl | hmem
      · exact absurd hsurvives hno
      · exact hmem
  have hmoves : ∀ old ∈ grants.rows,
      (Moves loser ((Sql.groups ResourceGrant.path (selectedRows loser winner grants)).map Prod.snd) old ↔
        Survives loser winner grants old ∧ old.subjectId = loser) := by
    intro old hold
    constructor
    · rintro ⟨rows, hrows, survivor, hhead, hid, hloser⟩
      obtain ⟨⟨first, rows⟩, hg, rfl⟩ := List.mem_map.1 hrows
      obtain ⟨duplicates, hshape, -, hsurvives, -⟩ := group_shape hg
      dsimp only at hshape hhead
      rw [hshape] at hhead
      cases hhead
      obtain rfl := Table.eq_of_key hsurvives.mem hold hid
      exact ⟨hsurvives, hloser⟩
    · rintro ⟨hsurvives, hloser⟩
      obtain ⟨g, hg, hmem⟩ := Sql.exists_group ResourceGrant.path (mem_selectedRows.2 ⟨hold, hsurvives.on_either⟩)
      obtain ⟨duplicates, hshape, -, -, hnone⟩ := group_shape hg
      refine ⟨g.2, List.mem_map_of_mem hg, old, ?_, rfl, hloser⟩
      rw [hshape] at hmem ⊢
      rcases List.mem_cons.1 hmem with rfl | hmem
      · rfl
      · exact absurd hsurvives (hnone old hmem)
  rw [hs, mem_groups]
  constructor
  · rintro ⟨old, hold, hkept, hlast⟩
    rw [hdropped old hold] at hkept
    rw [hmoves old hold] at hlast
    by_cases hon : old.onEither loser winner = true
    · have hsurvives : Survives loser winner grants old := by
        by_contra hno
        exact hkept ⟨hon, hno⟩
      refine .inr ⟨old, hsurvives, ?_⟩
      rcases hlast with ⟨-, rfl⟩ | ⟨hno, rfl⟩
      · rfl
      · exact (pointedAt_of_winner hon fun hloser => hno ⟨hsurvives, hloser⟩).symm
    · rcases hlast with ⟨⟨hsurvives, -⟩, -⟩ | ⟨-, rfl⟩
      · exact absurd hsurvives.on_either hon
      · exact .inl ⟨hold, by simpa using hon⟩
  · rintro (⟨hrow, hoff⟩ | ⟨old, hsurvives, rfl⟩)
    · refine ⟨row, hrow, ?_, .inr ⟨?_, rfl⟩⟩
      · rw [hdropped row hrow]
        rintro ⟨hon, -⟩
        rw [hoff] at hon
        cases hon
      · rw [hmoves row hrow]
        rintro ⟨hsurvives, -⟩
        have hon := hsurvives.on_either
        rw [hoff] at hon
        cases hon
    · refine ⟨old, hsurvives.mem, ?_, ?_⟩
      · rw [hdropped old hsurvives.mem]
        exact fun h => h.2 hsurvives
      · rw [hmoves old hsurvives.mem]
        by_cases hloser : old.subjectId = loser
        · exact .inl ⟨⟨hsurvives, hloser⟩, rfl⟩
        · exact .inr ⟨fun h => hloser h.2, pointedAt_of_winner hsurvives.on_either hloser⟩

/-! ## Access paths -/

/-- A direct path to a media, as creator or as grantee. -/
def DirectPath (grants : Grants) (userId mediaId : Uuid) : Prop :=
  ∃ row ∈ grants.rows, row.onMedia mediaId = true ∧ userId ∈ row.users

/-- What a repoint does to the grants. -/
structure KeepsPathsOnce (loser winner : Uuid) (before after : Grants) : Prop where
  none_on_loser : ∀ row ∈ after.rows, row.onMedia loser = false
  /-- One grant on the winner for each creator and audience of either side, -/
  one_of_path : ∀ old ∈ before.rows, old.onEither loser winner = true →
    ∃ row, (row ∈ after.rows ∧ row.onMedia winner = true ∧ row.path = old.path) ∧
      ∀ row', row' ∈ after.rows ∧ row'.onMedia winner = true ∧ row'.path = old.path → row' = row
  /-- which is the oldest of them, but for its subject. -/
  oldest : ∀ row ∈ after.rows, row.onMedia winner = true → ∃ old ∈ before.rows, old.onEither loser winner = true ∧
    row = old.pointedAt winner ∧
    ∀ other ∈ before.rows, other.onEither loser winner = true → other.path = old.path → old.Older other
  others : ∀ row, row.onEither loser winner = false → (row ∈ after.rows ↔ row ∈ before.rows)
  paths : ∀ userId, DirectPath before userId loser ∨ DirectPath before userId winner → DirectPath after userId winner

theorem users_eq_of_path {a b : ResourceGrant} (h : a.path = b.path) : a.users = b.users := by
  simp only [ResourceGrant.path, Prod.mk.injEq] at h
  obtain ⟨hcreator, haudience⟩ := h
  rw [ResourceGrant.users, ResourceGrant.users, hcreator]
  cases ha : a.granteeUserId <;> cases hb : b.granteeUserId <;> rw [ha, hb] at haudience <;>
    first | rfl | (cases haudience; rfl) | cases haudience

/-- **A repoint keeps every access path once.** -/
theorem repoint_keeps_paths_once (hne : loser ≠ winner)
    (hgrants : ∀ row ∈ grants.rows, row.onEither loser winner = true → ∃ record, recordFromRow sha256 row = .ok record) :
    ∃ s, repointMediaSubjects sha256 loser winner grants = .ok s ∧ KeepsPathsOnce loser winner grants s.grants := by
  refine ⟨_, repointMediaSubjects_eq fun row hrow => ?_, ?_⟩
  · obtain ⟨hmem, hon⟩ := mem_selectedRows.1 hrow
    exact hgrants row hmem hon
  generalize hs : List.foldl (Repoint.group loser winner) _ _ = s
  have hmem : ∀ row, row ∈ s.grants.rows ↔ row ∈ grants.rows ∧ row.onEither loser winner = false ∨
      ∃ old, Survives loser winner grants old ∧ row = old.pointedAt winner := fun _ => mem_repointed hs.symm
  have hpointed : ∀ {old : ResourceGrant}, Survives loser winner grants old →
      (old.pointedAt winner).onMedia winner = true := fun h => by
    rw [onMedia_pointedAt h.on_either]
    simp
  have hwinner : ∀ {row : ResourceGrant}, row ∈ s.grants.rows → row.onMedia winner = true →
      ∃ old, Survives loser winner grants old ∧ row = old.pointedAt winner := by
    intro row hrow hon
    rcases (hmem row).1 hrow with ⟨-, hoff⟩ | h
    · rw [onEither_iff.2 (.inr hon)] at hoff
      cases hoff
    · exact h
  refine ⟨?_, ?_, ?_, ?_, ?_⟩
  · intro row hrow
    rcases (hmem row).1 hrow with ⟨-, hoff⟩ | ⟨old, hsurvives, rfl⟩
    · by_contra hon
      rw [onEither_iff.2 (.inl (by simpa using hon))] at hoff
      cases hoff
    · rw [onMedia_pointedAt hsurvives.on_either]
      simpa using hne.symm
  · intro old hold hon
    obtain ⟨survivor, hsurvives, hpath⟩ := survivor_of_path hold hon
    refine ⟨survivor.pointedAt winner, ⟨(hmem _).2 (.inr ⟨survivor, hsurvives, rfl⟩), hpointed hsurvives, hpath⟩, ?_⟩
    rintro row' ⟨hrow', hon', hpath'⟩
    obtain ⟨survivor', hsurvives', rfl⟩ := hwinner hrow' hon'
    rw [hsurvives.unique hsurvives' (hpath.trans hpath'.symm)]
  · intro row hrow hon
    obtain ⟨old, hsurvives, rfl⟩ := hwinner hrow hon
    exact ⟨old, hsurvives.mem, hsurvives.on_either, rfl, hsurvives.oldest⟩
  · intro row hoff
    rw [hmem]
    constructor
    · rintro (⟨hrow, -⟩ | ⟨old, hsurvives, rfl⟩)
      · exact hrow
      · rw [onEither_iff.2 (.inr (hpointed hsurvives))] at hoff
        cases hoff
    · exact fun hrow => .inl ⟨hrow, hoff⟩
  · intro userId hpaths
    obtain ⟨old, hold, hon, huser⟩ : ∃ old ∈ grants.rows, old.onEither loser winner = true ∧ userId ∈ old.users := by
      rcases hpaths with ⟨old, hold, hon, huser⟩ | ⟨old, hold, hon, huser⟩
      · exact ⟨old, hold, onEither_iff.2 (.inl hon), huser⟩
      · exact ⟨old, hold, onEither_iff.2 (.inr hon), huser⟩
    obtain ⟨survivor, hsurvives, hpath⟩ := survivor_of_path hold hon
    refine ⟨survivor.pointedAt winner, (hmem _).2 (.inr ⟨survivor, hsurvives, rfl⟩), hpointed hsurvives, ?_⟩
    rw [show (survivor.pointedAt winner).users = survivor.users from rfl, users_eq_of_path hpath]
    exact huser

end Result

section Duplicates

/-- A link's token and its verifier. -/
def linkToken : Text := "nxshr1_AAECAwQFBgcICQoLDA0ODxAREhMUFRYXGBkaGxwdHh8".toList

def linkVerifier : Bytes :=
  [12, 199, 50, 240, 188, 136, 235, 136, 92, 133, 23, 39, 153, 215, 219, 150, 119, 35, 208, 230, 213, 17, 92, 231, 77, 89, 3,
    254, 120, 173, 230, 133]

/-- One user's grants on media 1 and 2, to user 9 twice and by a link once, and a grant on a highlight. -/
def duplicateGrants : Grants :=
  ⟨[⟨11, "media".toList, 1, 7, .some 9, .none, .none, 50⟩, ⟨12, "media".toList, 2, 7, .some 9, .none, .none, 40⟩,
    ⟨13, "media".toList, 1, 7, .none, .some linkToken, .some linkVerifier, 60⟩,
    ⟨14, "highlight".toList, 1, 7, .some 9, .none, .none, 30⟩], by decide⟩

theorem duplicate_grants_converge :
    ∃ s, repointMediaSubjects (fun _ => linkVerifier) 1 2 duplicateGrants = .ok s ∧
      KeepsPathsOnce 1 2 duplicateGrants s.grants := by
  refine repoint_keeps_paths_once (by decide) fun row hrow hon => ?_
  simp only [duplicateGrants, List.mem_cons, List.not_mem_nil, or_false] at hrow
  rcases hrow with rfl | rfl | rfl | rfl
  · exact ⟨_, rfl⟩
  · exact ⟨_, rfl⟩
  · exact ⟨_, by rfl⟩
  · exact absurd hon (by decide +kernel)

end Duplicates

end Nexus.Sharing
