/-
What holds of libraries, members and invitations in every run of the
governance commands.

A command does to libraries and members what `Change` says and to invitations
what `InvitationChange` says (`run_spec`). `Governed` is what each change
keeps: an owner is an admin member, and whoever is a member once owned the
library or accepted an invitation to it and was not removed since (`stands`).
-/
import Nexus.Libraries.Governance
import Nexus.Lib.ExceptFacts
import Nexus.Lib.Run

namespace Nexus.Libraries
open Relational ExceptFacts Transition

/-! ## Runs -/

/-- What commands report of a user's place in a library. -/
inductive GovernanceFact
  | owned (libraryId userId : Uuid)
  | accepted (invitationId libraryId userId : Uuid)
  | removed (libraryId userId : Uuid)
  | deleted (libraryId : Uuid)
  deriving DecidableEq, Repr

def GovernanceFact.admits (libraryId userId : Uuid) : GovernanceFact → Bool
  | .owned l u | .accepted _ l u => l == libraryId && u == userId
  | .removed .. | .deleted _ => false

def GovernanceFact.dismisses (libraryId userId : Uuid) : GovernanceFact → Bool
  | .removed l u => l == libraryId && u == userId
  | .deleted l => l == libraryId
  | .owned .. | .accepted .. => false

/-- The user came in and was not dismissed since; the latest fact is first. -/
def stands (libraryId userId : Uuid) : List GovernanceFact → Bool
  | [] => false
  | f :: log => f.admits libraryId userId || (!f.dismisses libraryId userId && stands libraryId userId log)

inductive GovernanceCommand
  | signIn (userId : Uuid) (email : Option (List Char)) (newId : Uuid)
  | ensureSystem (systemKey name : List Char) (ownerUserId newId : Uuid)
  | create (viewerId : Uuid) (request : CreateLibraryRequest)
  | rename (viewerId libraryId : Uuid) (name : List Char)
  | delete (viewerId libraryId : Uuid)
  | updateRole (viewerId libraryId targetUserId : Uuid) (role : LibraryRole)
  | remove (viewerId libraryId targetUserId : Uuid)
  | transfer (viewerId libraryId newOwnerUserId : Uuid)
  | invite (viewerId libraryId : Uuid) (invitee : LibraryInvitee) (role : LibraryRole) (canShare : Bool) (newId : Uuid)
  | accept (viewerId : Uuid) (inviteId : Option Uuid)
  | decline (viewerId : Uuid) (inviteId : Option Uuid)
  | revoke (viewerId : Uuid) (inviteId : Option Uuid)

/-- The tables after a command, and what it reports. -/
def GovernanceCommand.run (now : Instant) (db : GovernanceDb) :
    GovernanceCommand → Except Abort (GovernanceDb × List GovernanceFact)
  | .signIn userId email newId =>
    (ensureUserAndDefaultLibrary now db userId email newId).map fun r => (r.1, if r.2.2 then [.owned r.2.1 userId] else [])
  | .ensureSystem systemKey name ownerUserId newId =>
    (ensureSystemLibrary now db systemKey name ownerUserId newId).map fun r =>
      (r.1, if r.2.2 then [.owned r.2.1 ownerUserId] else [])
  | .create viewerId request =>
    (createLibrary now db viewerId request).map fun r => (r.1, if r.2.2 then [.owned request.libraryId viewerId] else [])
  | .rename viewerId libraryId name => (renameLibrary now db viewerId libraryId name).map fun r => (r.1, [])
  | .delete viewerId libraryId => (deleteLibrary db viewerId libraryId).map fun db => (db, [.deleted libraryId])
  | .updateRole viewerId libraryId targetUserId role =>
    (updateLibraryMemberRole now db viewerId libraryId targetUserId role).map fun r => (r.1, [])
  | .remove viewerId libraryId targetUserId =>
    (removeLibraryMember now db viewerId libraryId targetUserId).map fun r =>
      (r.1, if r.2 then [.removed libraryId targetUserId] else [])
  | .transfer viewerId libraryId newOwnerUserId =>
    (transferLibraryOwnership now db viewerId libraryId newOwnerUserId).map fun r =>
      (r.1, [.owned libraryId newOwnerUserId])
  | .invite viewerId libraryId invitee role canShare newId =>
    (createLibraryInvite now db viewerId libraryId invitee role canShare newId).map fun r => (r.1, [])
  | .accept viewerId inviteId =>
    (acceptLibraryInvite now db viewerId inviteId).map fun r =>
      (r.1, if r.2.idempotent then [] else [.accepted r.2.invite.id r.2.membershipLibraryId viewerId])
  | .decline viewerId inviteId => (declineLibraryInvite now db viewerId inviteId).map fun r => (r.1, [])
  | .revoke viewerId inviteId => (revokeLibraryInvite now db viewerId inviteId).map fun db => (db, [])

structure GovernanceState where
  db : GovernanceDb
  log : List GovernanceFact

/-- A command that is refused changes nothing. -/
def GovernanceState.next (s : GovernanceState) (e : Instant × GovernanceCommand) : Option GovernanceState :=
  match e.2.run e.1 s.db with
  | .ok (db, facts) => .some ⟨db, facts ++ s.log⟩
  | .error _ => .some s

def noLibraries : GovernanceState := ⟨⟨.empty, .empty, .empty, .empty⟩, []⟩

def governanceSystem : System GovernanceState (Instant × GovernanceCommand) :=
  .ofFun (fun s => s = noLibraries) GovernanceState.next

/-! ## Invitations -/

/-- What a command does to invitations. -/
inductive InvitationChange (s : Store invitationSchema) : Store invitationSchema → Prop
  | same : InvitationChange s s
  | invite {t i} : s.insert? i = .some t → i.status = .pending → InvitationChange s t
  | respond {t id status now hf} : s.update? id (fun i => { i with status, respondedAt := .some now }) hf = .some t →
      (∀ i ∈ s.rows, i.id = id → i.status = .pending) → status ≠ .pending → InvitationChange s t
  | cascade (libraryId) : InvitationChange s (s.deleteWhere fun i => i.libraryId == libraryId)

/-- An invitation is as it was, or was pending and is no more. -/
def Settled (i j : LibraryInvitation) : Prop :=
  j = i ∨ (i.status = .pending ∧ j.status ≠ .pending ∧ { j with status := i.status, respondedAt := i.respondedAt } = i)

/-- **An invitation leaves `pending` and nothing else.** -/
theorem InvitationChange.settled {s t : Store invitationSchema} (h : InvitationChange s t) :
    ∀ i ∈ s.rows, ∀ j ∈ t.rows, j.id = i.id → Settled i j := by
  intro i hi j hj hid
  cases h with
  | same => exact .inl (Table.eq_of_key hj hi hid)
  | invite hins _ =>
    rcases (Store.mem_insert? hins).1 hj with rfl | hjs
    · exact absurd hid.symm (Table.find?_eq_none.1 (Store.insert?_eq_some.1 hins).1.2 i hi)
    · exact .inl (Table.eq_of_key hjs hi hid)
  | respond hupd hpending hstatus =>
    rw [Store.rows_update? hupd] at hj
    obtain ⟨k, hk, rfl⟩ := List.mem_map.1 hj
    have hkid : k.id = i.id := by
      rw [← hid]
      split <;> rfl
    obtain rfl : k = i := Table.eq_of_key hk hi hkid
    split
    next hkey => exact .inr ⟨hpending k hk hkey, hstatus, rfl⟩
    next => exact .inl rfl
  | cascade libraryId => exact .inl (Table.eq_of_key (Store.mem_deleteWhere.1 hj).1 hi hid)

/-! ## Libraries and members -/

/-- What a command does to users, libraries and members, and what it reports. -/
inductive Change : GovernanceDb → GovernanceDb → List GovernanceFact → Prop
  | same {db} : Change db db []
  /-- a report that dismisses nobody -/
  | note {db} (f : GovernanceFact) : (∀ libraryId userId, f.dismisses libraryId userId = false) → Change db db [f]
  | users {db} (users) : Change db { db with users } []
  | found {db libraries memberships l now} : db.libraries.insert? l = .some libraries →
      db.memberships.insert? ⟨l.id, l.ownerUserId, .admin, now⟩ = .some memberships →
      Change db { db with libraries, memberships } [.owned l.id l.ownerUserId]
  | retitle {db libraries id f hf} : db.libraries.update? id f hf = .some libraries →
      (∀ l, (f l).ownerUserId = l.ownerUserId) → Change db { db with libraries } []
  | role {db libraryId userId role} :
      (∀ l ∈ db.libraries.rows, l.id = libraryId → l.ownerUserId = userId → role = .admin) →
      Change db (db.setRole libraryId userId role) []
  | handOver {db libraries id userId now hf} :
      db.libraries.update? id (fun l => { l with ownerUserId := userId, updatedAt := now }) hf = .some libraries →
      (∃ m ∈ db.memberships.rows, m.libraryId = id ∧ m.userId = userId ∧ m.role = .admin) →
      Change db { db with libraries } [.owned id userId]
  | join {db memberships m invitationId} : db.memberships.insert? m = .some memberships →
      (∃ l ∈ db.libraries.rows, l.id = m.libraryId) →
      Change db { db with memberships } [.accepted invitationId m.libraryId m.userId]
  | leave {db libraryId userId} : (∀ l ∈ db.libraries.rows, l.id = libraryId → l.ownerUserId ≠ userId) →
      Change db { db with
        memberships := db.memberships.deleteWhere fun m => m.libraryId == libraryId && m.userId == userId }
      [.removed libraryId userId]
  | dissolve {db} (libraryId) :
      Change db { db with
        libraries := db.libraries.deleteWhere fun l => l.id == libraryId
        memberships := db.memberships.deleteWhere fun m => m.libraryId == libraryId } [.deleted libraryId]
  | trans {db mid db' first second} : Change db mid first → Change mid db' second → Change db db' (second ++ first)

structure Governed (db : GovernanceDb) (log : List GovernanceFact) : Prop where
  owner : ∀ l ∈ db.libraries.rows, ∃ m ∈ db.memberships.rows,
    m.libraryId = l.id ∧ m.userId = l.ownerUserId ∧ m.role = .admin
  /-- the foreign key of `memberships.library_id` -/
  library : ∀ m ∈ db.memberships.rows, ∃ l ∈ db.libraries.rows, l.id = m.libraryId
  stands : ∀ m ∈ db.memberships.rows, stands m.libraryId m.userId log = true

theorem stands_cons {libraryId userId : Uuid} {f : GovernanceFact} {log : List GovernanceFact}
    (hf : f.dismisses libraryId userId = false) (h : stands libraryId userId log = true) :
    stands libraryId userId (f :: log) = true := by simp [stands, hf, h]

theorem stands_of_admits {libraryId userId : Uuid} {f : GovernanceFact} {log : List GovernanceFact}
    (hf : f.admits libraryId userId = true) : stands libraryId userId (f :: log) = true := by simp [stands, hf]

theorem mem_setRole {db : GovernanceDb} {libraryId userId : Uuid} {role : LibraryRole} {m' : Membership} :
    m' ∈ (db.setRole libraryId userId role).memberships.rows ↔ ∃ m ∈ db.memberships.rows,
      (if (m.libraryId == libraryId && m.userId == userId) = true then { m with role } else m) = m' := List.mem_map

theorem Governed.of_libraries {db : GovernanceDb} {log} (h : Governed db log) {libraries : Store librarySchema}
    {id f hf} (hupd : db.libraries.update? id f hf = .some libraries)
    (howner : ∀ l ∈ db.libraries.rows, l.id = id → ∃ m ∈ db.memberships.rows,
      m.libraryId = id ∧ m.userId = (f l).ownerUserId ∧ m.role = .admin) : Governed { db with libraries } log := by
  have hkey : ∀ l : Library, (f l).id = l.id := hf
  constructor
  case owner =>
    intro l hl
    rw [Store.rows_update? hupd] at hl
    obtain ⟨l₀, hl₀, rfl⟩ := List.mem_map.1 hl
    split
    next hid =>
      obtain ⟨m, hm, hlib, huser⟩ := howner l₀ hl₀ hid
      exact ⟨m, hm, hlib.trans (hid.symm.trans (hkey l₀).symm), huser⟩
    next => exact h.owner l₀ hl₀
  case library =>
    intro m hm
    obtain ⟨l, hl, hid⟩ := h.library m hm
    rw [Store.rows_update? hupd]
    refine ⟨_, List.mem_map.2 ⟨l, hl, rfl⟩, ?_⟩
    split
    · exact (hkey l).trans hid
    · exact hid
  case stands => exact h.stands

/-- **What a change does keeps every library governed.** -/
theorem Governed.change {db db' : GovernanceDb} {facts log} (hc : Change db db' facts) (h : Governed db log) :
    Governed db' (facts ++ log) := by
  induction hc generalizing log with
  | same => exact h
  | note f hf => exact ⟨h.owner, h.library, fun m hm => stands_cons (hf _ _) (h.stands m hm)⟩
  | users users => exact ⟨h.owner, h.library, h.stands⟩
  | @found db libraries memberships l now hlib hmem =>
    have hrows := (Table.insert?_eq_some.1 hmem).2
    constructor
    case owner =>
      intro l' hl'
      rcases (Store.mem_insert? hlib).1 hl' with rfl | hl'
      · exact ⟨_, by rw [hrows]; exact List.mem_cons_self, rfl, rfl, rfl⟩
      · obtain ⟨m, hm, hrest⟩ := h.owner l' hl'
        exact ⟨m, by rw [hrows]; exact List.mem_cons_of_mem _ hm, hrest⟩
    case library =>
      intro m hm
      simp only [hrows] at hm
      rcases List.mem_cons.1 hm with rfl | hm
      · exact ⟨l, (Store.mem_insert? hlib).2 (.inl rfl), rfl⟩
      · obtain ⟨l', hl', hid⟩ := h.library m hm
        exact ⟨l', (Store.mem_insert? hlib).2 (.inr hl'), hid⟩
    case stands =>
      intro m hm
      simp only [hrows] at hm
      rcases List.mem_cons.1 hm with rfl | hm
      · exact stands_of_admits (by simp [GovernanceFact.admits])
      · exact stands_cons rfl (h.stands m hm)
  | retitle hupd howner =>
    refine h.of_libraries hupd fun l hl hid => ?_
    obtain ⟨m, hm, hlib, huser, hrole⟩ := h.owner l hl
    exact ⟨m, hm, hlib.trans hid, huser.trans (howner l).symm, hrole⟩
  | @role db libraryId userId role howner =>
    constructor
    case owner =>
      intro l hl
      obtain ⟨m, hm, hlib, huser, hrole⟩ := h.owner l hl
      refine ⟨_, mem_setRole.2 ⟨m, hm, rfl⟩, ?_⟩
      split
      next htarget =>
        simp only [Bool.and_eq_true, beq_iff_eq] at htarget
        exact ⟨hlib, huser, howner l hl (hlib.symm.trans htarget.1) (huser.symm.trans htarget.2)⟩
      next => exact ⟨hlib, huser, hrole⟩
    case library =>
      intro m' hm'
      obtain ⟨m, hm, rfl⟩ := mem_setRole.1 hm'
      have hlibrary := h.library m hm
      split <;> exact hlibrary
    case stands =>
      intro m' hm'
      obtain ⟨m, hm, rfl⟩ := mem_setRole.1 hm'
      have hstands := h.stands m hm
      split <;> exact hstands
  | handOver hupd hmember =>
    have hgoverned := h.of_libraries hupd fun _ _ _ => hmember
    exact ⟨hgoverned.owner, hgoverned.library, fun m hm => stands_cons rfl (h.stands m hm)⟩
  | @join db memberships m invitationId hins hlibrary =>
    have hrows := (Table.insert?_eq_some.1 hins).2
    constructor
    case owner =>
      intro l hl
      obtain ⟨m', hm', hrest⟩ := h.owner l hl
      exact ⟨m', by rw [hrows]; exact List.mem_cons_of_mem _ hm', hrest⟩
    case library =>
      intro m' hm'
      simp only [hrows] at hm'
      rcases List.mem_cons.1 hm' with rfl | hm'
      · exact hlibrary
      · exact h.library m' hm'
    case stands =>
      intro m' hm'
      simp only [hrows] at hm'
      rcases List.mem_cons.1 hm' with rfl | hm'
      · exact stands_of_admits (by simp [GovernanceFact.admits])
      · exact stands_cons rfl (h.stands m' hm')
  | @leave db libraryId userId howner =>
    constructor
    case owner =>
      intro l hl
      obtain ⟨m, hm, hlib, huser, hrole⟩ := h.owner l hl
      refine ⟨m, Table.mem_deleteWhere.2 ⟨hm, ?_⟩, hlib, huser, hrole⟩
      rw [Bool.and_eq_false_iff, beq_eq_false_iff_ne, beq_eq_false_iff_ne]
      by_cases hid : m.libraryId = libraryId
      · exact .inr (huser ▸ howner l hl (hlib.symm.trans hid))
      · exact .inl hid
    case library => exact fun m hm => h.library m (Table.mem_deleteWhere.1 hm).1
    case stands =>
      intro m hm
      obtain ⟨hmem, hother⟩ := Table.mem_deleteWhere.1 hm
      refine stands_cons ?_ (h.stands m hmem)
      simp only [GovernanceFact.dismisses]
      rw [Bool.and_eq_false_iff, beq_eq_false_iff_ne, beq_eq_false_iff_ne] at hother ⊢
      exact hother.imp Ne.symm Ne.symm
  | @dissolve db libraryId =>
    constructor
    case owner =>
      intro l hl
      obtain ⟨hmem, hother⟩ := Store.mem_deleteWhere.1 hl
      obtain ⟨m, hm, hlib, hrest⟩ := h.owner l hmem
      exact ⟨m, Table.mem_deleteWhere.2 ⟨hm, by rw [hlib]; exact hother⟩, hlib, hrest⟩
    case library =>
      intro m hm
      obtain ⟨hmem, hother⟩ := Table.mem_deleteWhere.1 hm
      obtain ⟨l, hl, hid⟩ := h.library m hmem
      exact ⟨l, Store.mem_deleteWhere.2 ⟨hl, by rw [hid]; exact hother⟩, hid⟩
    case stands =>
      intro m hm
      obtain ⟨hmem, hother⟩ := Table.mem_deleteWhere.1 hm
      refine stands_cons ?_ (h.stands m hmem)
      simp only [GovernanceFact.dismisses]
      rw [beq_eq_false_iff_ne] at hother ⊢
      exact Ne.symm hother
  | trans _ _ ih₁ ih₂ =>
    rw [List.append_assoc]
    exact ih₂ (ih₁ h)

/-! ## Commands -/

/-- A command's change of libraries and members, then of invitations. -/
def Effect (db db' : GovernanceDb) (facts : List GovernanceFact) : Prop :=
  ∃ mid, Change db mid facts ∧ InvitationChange mid.invitations db'.invitations ∧
    db' = { mid with invitations := db'.invitations }

theorem Change.effect {db db' : GovernanceDb} {facts} (h : Change db db' facts) : Effect db db' facts :=
  ⟨db', h, .same, rfl⟩

theorem Change.invitations {db db' : GovernanceDb} {facts} (h : Change db db' facts) : db'.invitations = db.invitations := by
  induction h with
  | trans _ _ ih₁ ih₂ => exact ih₂.trans ih₁
  | same | note | users | found | retitle | role | handOver | join | leave | dissolve => rfl

theorem orDatabase_eq_ok {α : Type} {o : Option α} {a : α} : orDatabase o = .ok a ↔ o = .some a := by
  cases o <;> simp [orDatabase]

section Commands

variable {db db' : GovernanceDb} {now : Instant} {log : List GovernanceFact}

theorem insertMembership_ok {m : Membership} (h : db.insertMembership m = .ok db') :
    (∃ l ∈ db.libraries.rows, l.id = m.libraryId) ∧
      ∃ memberships, db.memberships.insert? m = .some memberships ∧ db' = { db with memberships } := by
  unfold GovernanceDb.insertMembership at h
  obtain ⟨hthere, h⟩ := check_eq_ok.1 h
  obtain ⟨memberships, hins, rfl⟩ := map_eq_ok.1 h
  refine ⟨?_, memberships, orDatabase_eq_ok.1 hins, rfl⟩
  cases hl : db.findLibrary m.libraryId with
  | none => exact absurd (.inr (by rw [hl]; rfl)) hthere
  | some l => exact ⟨l, Table.find?_eq_some.1 hl⟩

theorem insertLibrary_ok {l : Library} (h : db.insertLibrary l = .ok db') :
    ∃ libraries, db.libraries.insert? l = .some libraries ∧ db' = { db with libraries } := by
  unfold GovernanceDb.insertLibrary at h
  obtain ⟨libraries, hins, rfl⟩ := map_eq_ok.1 (check_eq_ok.1 h).2
  exact ⟨libraries, orDatabase_eq_ok.1 hins, rfl⟩

theorem Change.of_inserts {mid : GovernanceDb} {l : Library} (hl : db.insertLibrary l = .ok mid)
    (hm : mid.insertMembership ⟨l.id, l.ownerUserId, .admin, now⟩ = .ok db') :
    Change db db' [.owned l.id l.ownerUserId] := by
  obtain ⟨libraries, hlib, rfl⟩ := insertLibrary_ok hl
  obtain ⟨-, memberships, hmem, rfl⟩ := insertMembership_ok hm
  exact .found hlib hmem

theorem lockLibraryForMember_ok {viewerId libraryId : Uuid} {ctx : LibraryMembershipContext}
    (h : lockLibraryForMember db viewerId libraryId = .ok ctx) : ctx.toLibrary ∈ db.libraries.rows ∧ ctx.id = libraryId := by
  unfold lockLibraryForMember at h
  split at h
  next l m hl hm =>
    cases h
    exact Table.find?_eq_some.1 hl
  next => cases h

/-- **There is nothing to repair.** -/
theorem Governed.repair (h : Governed db log) {l : Library} (hl : l ∈ db.libraries.rows) :
    repairOwnerAdminInvariant now db l.id l.ownerUserId = .ok (db, false) := by
  obtain ⟨m, hm, hlib, huser, hrole⟩ := h.owner l hl
  have hfind : db.findMembership l.id l.ownerUserId = .some m :=
    Table.find?_eq_some.2 ⟨hm, by rw [Membership.key, hlib, huser]⟩
  unfold repairOwnerAdminInvariant
  rw [hfind]
  simp [hrole]

theorem effect_ensureUserAndDefaultLibrary (h : Governed db log) {userId : Uuid} {email : Option (List Char)}
    {newId libraryId : Uuid} {created : Bool}
    (hrun : ensureUserAndDefaultLibrary now db userId email newId = .ok (db', libraryId, created)) :
    Effect db db' (if created then [.owned libraryId userId] else []) := by
  unfold ensureUserAndDefaultLibrary at hrun
  obtain ⟨users, -, hrun⟩ := bind_eq_ok.1 hrun
  have husers : Change db { db with users } [] := .users users
  have hgoverned := h.change husers
  cases hfound : db.libraries.rows.find? fun l => l.ownerUserId == userId && l.isDefault with
  | some l =>
    have hl := List.mem_of_find?_eq_some hfound
    have hp := List.find?_some hfound
    simp only [Bool.and_eq_true, beq_iff_eq] at hp
    simp only [hfound, Option.map_some, Option.getD_some] at hrun
    obtain ⟨mid, hmid, hrun⟩ := bind_eq_ok.1 hrun
    obtain rfl := Except.ok.inj hmid
    obtain ⟨⟨rep, repaired⟩, hrep, hrun⟩ := bind_eq_ok.1 hrun
    rw [← hp.1, hgoverned.repair hl] at hrep
    cases hrep
    cases hrun
    exact husers.effect
  | none =>
    simp only [hfound, Option.map_none, Option.getD_none] at hrun
    obtain ⟨mid, hmid, hrun⟩ := bind_eq_ok.1 hrun
    obtain ⟨⟨rep, repaired⟩, hrep, hrun⟩ := bind_eq_ok.1 hrun
    cases hrun
    obtain ⟨libraries, hlib, rfl⟩ := insertLibrary_ok hmid
    -- the library is new, so nobody is a member yet
    have hnone : GovernanceDb.findMembership { db with users, libraries } newId userId = .none := by
      refine Table.find?_eq_none.2 fun m hm hkey => ?_
      obtain ⟨l, hl, hid⟩ := h.library m hm
      exact Table.find?_eq_none.1 (Store.insert?_eq_some.1 hlib).1.2 l hl (hid.trans (Prod.mk.inj hkey).1)
    unfold repairOwnerAdminInvariant at hrep
    rw [hnone] at hrep
    obtain ⟨mid, hins, hpair⟩ := map_eq_ok.1 hrep
    cases hpair
    exact (Change.trans husers (.of_inserts hmid hins)).effect

theorem effect_createLibrary {viewerId : Uuid} {request : CreateLibraryRequest} {out : LibraryOut} {created : Bool}
    (hrun : createLibrary now db viewerId request = .ok (db', out, created)) :
    Effect db db' (if created then [.owned request.libraryId viewerId] else []) := by
  unfold createLibrary at hrun
  obtain ⟨name, -, hrun⟩ := bind_eq_ok.1 hrun
  simp only at hrun
  split at hrun
  · obtain ⟨-, hrun⟩ := check_eq_ok.1 hrun
    cases hrun
    exact Change.same.effect
  · obtain ⟨mid, hlib, hrun⟩ := bind_eq_ok.1 hrun
    obtain ⟨final, hmem, hrun⟩ := bind_eq_ok.1 hrun
    cases hrun
    exact (Change.of_inserts hlib hmem).effect

theorem effect_ensureSystemLibrary {systemKey name : List Char} {ownerUserId newId libraryId : Uuid} {created : Bool}
    (hrun : ensureSystemLibrary now db systemKey name ownerUserId newId = .ok (db', libraryId, created)) :
    Effect db db' (if created then [.owned libraryId ownerUserId] else []) := by
  unfold ensureSystemLibrary at hrun
  split at hrun
  · cases hrun
    exact Change.same.effect
  · obtain ⟨mid, hlib, hrun⟩ := bind_eq_ok.1 hrun
    obtain ⟨final, hmem, hrun⟩ := bind_eq_ok.1 hrun
    cases hrun
    exact (Change.of_inserts hlib hmem).effect

theorem effect_renameLibrary {viewerId libraryId : Uuid} {name : List Char} {out : LibraryOut}
    (hrun : renameLibrary now db viewerId libraryId name = .ok (db', out)) : Effect db db' [] := by
  unfold renameLibrary at hrun
  obtain ⟨name, -, hrun⟩ := bind_eq_ok.1 hrun
  obtain ⟨ctx, -, hrun⟩ := bind_eq_ok.1 hrun
  obtain ⟨-, -, hrun⟩ := bind_eq_ok.1 hrun
  obtain ⟨-, -, hrun⟩ := bind_eq_ok.1 hrun
  obtain ⟨-, -, hrun⟩ := bind_eq_ok.1 hrun
  obtain ⟨libraries, hupd, hrun⟩ := bind_eq_ok.1 hrun
  cases hrun
  exact (Change.retitle (orDatabase_eq_ok.1 hupd) fun _ => rfl).effect

theorem effect_deleteLibrary {viewerId libraryId : Uuid} (hrun : deleteLibrary db viewerId libraryId = .ok db') :
    Effect db db' [.deleted libraryId] := by
  unfold deleteLibrary at hrun
  obtain ⟨ctx, -, hrun⟩ := bind_eq_ok.1 hrun
  obtain ⟨-, -, hrun⟩ := bind_eq_ok.1 hrun
  obtain ⟨-, -, hrun⟩ := bind_eq_ok.1 hrun
  obtain ⟨-, hrun⟩ := check_eq_ok.1 hrun
  cases hrun
  exact ⟨_, .dissolve libraryId, .cascade libraryId, rfl⟩

theorem effect_updateLibraryMemberRole (h : Governed db log) {viewerId libraryId targetUserId : Uuid} {role : LibraryRole}
    {out : LibraryMemberOut}
    (hrun : updateLibraryMemberRole now db viewerId libraryId targetUserId role = .ok (db', out)) : Effect db db' [] := by
  unfold updateLibraryMemberRole at hrun
  obtain ⟨ctx, hctx, hrun⟩ := bind_eq_ok.1 hrun
  obtain ⟨-, -, hrun⟩ := bind_eq_ok.1 hrun
  obtain ⟨-, -, hrun⟩ := bind_eq_ok.1 hrun
  obtain ⟨-, -, hrun⟩ := bind_eq_ok.1 hrun
  obtain ⟨hlib, rfl⟩ := lockLibraryForMember_ok hctx
  obtain ⟨⟨rep, repaired⟩, hrep, hrun⟩ := bind_eq_ok.1 hrun
  cases (h.repair hlib).symm.trans hrep
  obtain ⟨howner, hrun⟩ := check_eq_ok.1 hrun
  split at hrun
  · cases hrun
  · split at hrun
    · cases hrun
      refine (Change.role fun l hl hid huser => absurd ?_ howner).effect
      obtain rfl : l = ctx.toLibrary := Table.eq_of_key hl hlib hid
      exact huser.symm
    · cases hrun
      exact Change.same.effect

theorem effect_removeLibraryMember (h : Governed db log) {viewerId libraryId targetUserId : Uuid} {removed : Bool}
    (hrun : removeLibraryMember now db viewerId libraryId targetUserId = .ok (db', removed)) :
    Effect db db' (if removed then [.removed libraryId targetUserId] else []) := by
  unfold removeLibraryMember at hrun
  obtain ⟨ctx, hctx, hrun⟩ := bind_eq_ok.1 hrun
  obtain ⟨-, -, hrun⟩ := bind_eq_ok.1 hrun
  obtain ⟨-, -, hrun⟩ := bind_eq_ok.1 hrun
  obtain ⟨-, -, hrun⟩ := bind_eq_ok.1 hrun
  obtain ⟨hlib, rfl⟩ := lockLibraryForMember_ok hctx
  obtain ⟨⟨rep, repaired⟩, hrep, hrun⟩ := bind_eq_ok.1 hrun
  cases (h.repair hlib).symm.trans hrep
  obtain ⟨howner, hrun⟩ := check_eq_ok.1 hrun
  split at hrun
  · cases hrun
    exact Change.same.effect
  · cases hrun
    refine (Change.leave fun l hl hid huser => howner ?_).effect
    obtain rfl : l = ctx.toLibrary := Table.eq_of_key hl hlib hid
    exact huser.symm

theorem effect_transferLibraryOwnership (h : Governed db log) {viewerId libraryId newOwnerUserId : Uuid} {out : LibraryOut}
    (hrun : transferLibraryOwnership now db viewerId libraryId newOwnerUserId = .ok (db', out)) :
    Effect db db' [.owned libraryId newOwnerUserId] := by
  unfold transferLibraryOwnership at hrun
  obtain ⟨ctx, hctx, hrun⟩ := bind_eq_ok.1 hrun
  obtain ⟨-, -, hrun⟩ := bind_eq_ok.1 hrun
  obtain ⟨-, -, hrun⟩ := bind_eq_ok.1 hrun
  obtain ⟨-, hrun⟩ := check_eq_ok.1 hrun
  obtain ⟨hlib, rfl⟩ := lockLibraryForMember_ok hctx
  obtain ⟨⟨rep, repaired⟩, hrep, hrun⟩ := bind_eq_ok.1 hrun
  cases (h.repair hlib).symm.trans hrep
  simp only at hrun
  by_cases hsame : newOwnerUserId = ctx.ownerUserId
  · rw [if_pos hsame] at hrun
    cases hrun
    exact (Change.note _ fun _ _ => rfl).effect
  · rw [if_neg hsame] at hrun
    split at hrun
    · cases hrun
    next target htarget =>
      obtain ⟨hmem, hkey⟩ := Table.find?_eq_some.1 htarget
      obtain ⟨hlibrary, huser⟩ := Prod.mk.inj hkey
      obtain ⟨libraries, hupd, hrun⟩ := bind_eq_ok.1 hrun
      cases hrun
      have hupd := orDatabase_eq_ok.1 hupd
      split at hupd
      next hrole =>
        rw [if_pos hrole]
        refine (Change.trans (.role fun _ _ _ _ => rfl) (.handOver hupd ⟨_, mem_setRole.2 ⟨target, hmem, rfl⟩, ?_⟩)).effect
        simp [hlibrary, huser]
      next hrole =>
        rw [if_neg hrole]
        exact (Change.handOver hupd ⟨target, hmem, hlibrary, huser, not_not.1 hrole⟩).effect

theorem effect_createLibraryInvite {viewerId libraryId : Uuid} {invitee : LibraryInvitee} {role : LibraryRole}
    {canShare : Bool} {newId : Uuid} {out : LibraryInvitationOut}
    (hrun : createLibraryInvite now db viewerId libraryId invitee role canShare newId = .ok (db', out)) :
    Effect db db' [] := by
  unfold createLibraryInvite at hrun
  obtain ⟨ctx, -, hrun⟩ := bind_eq_ok.1 hrun
  obtain ⟨-, -, hrun⟩ := bind_eq_ok.1 hrun
  obtain ⟨-, -, hrun⟩ := bind_eq_ok.1 hrun
  obtain ⟨-, -, hrun⟩ := bind_eq_ok.1 hrun
  obtain ⟨userId, -, hrun⟩ := bind_eq_ok.1 hrun
  obtain ⟨-, hrun⟩ := check_eq_ok.1 hrun
  obtain ⟨-, hrun⟩ := check_eq_ok.1 hrun
  obtain ⟨-, hrun⟩ := check_eq_ok.1 hrun
  obtain ⟨invitations, hins, hrun⟩ := bind_eq_ok.1 hrun
  obtain ⟨out, -, hrun⟩ := bind_eq_ok.1 hrun
  cases hrun
  exact ⟨db, .same, .invite (orDatabase_eq_ok.1 hins) rfl, rfl⟩

theorem findInvitation_mem {id : Uuid} {inv : LibraryInvitationOut} (h : findInvitation db id = .some inv) :
    inv.toLibraryInvitation ∈ db.invitations.rows := by
  obtain ⟨i, hi, h⟩ := Option.bind_eq_some_iff.1 h
  obtain ⟨u, -, h⟩ := Option.bind_eq_some_iff.1 h
  cases h
  exact (Table.find?_eq_some.1 hi).1

theorem viewerInvitation_ok {viewerId : Uuid} {inviteId : Option Uuid} {inv : LibraryInvitationOut}
    (h : viewerInvitation db viewerId inviteId = .ok inv) :
    inv.toLibraryInvitation ∈ db.invitations.rows ∧ inv.inviteeUserId = viewerId := by
  unfold viewerInvitation at h
  split at h
  · cases h
  next i hi =>
    cases h
    obtain ⟨hi, hviewer⟩ := Option.filter_eq_some_iff.1 hi
    obtain ⟨id, -, hfind⟩ := Option.bind_eq_some_iff.1 hi
    exact ⟨findInvitation_mem hfind, beq_iff_eq.1 hviewer⟩

theorem respond_ok {mid : GovernanceDb} {inv : LibraryInvitation} {status : LibraryInvitationStatus}
    (hmem : inv ∈ mid.invitations.rows) (hpending : inv.status = .pending) (hstatus : status ≠ .pending)
    (h : respond now mid inv.id status = .ok db') :
    InvitationChange mid.invitations db'.invitations ∧ db' = { mid with invitations := db'.invitations } := by
  obtain ⟨invitations, hupd, rfl⟩ := map_eq_ok.1 h
  refine ⟨.respond (orDatabase_eq_ok.1 hupd) (fun i hi hid => ?_) hstatus, rfl⟩
  obtain rfl : i = inv := Table.eq_of_key hi hmem hid
  exact hpending

theorem loadInvitationProjection_id {id : Uuid} {out : LibraryInvitationOut}
    (h : loadInvitationProjection db id = .ok out) : out.id = id := by
  unfold loadInvitationProjection at h
  split at h
  next inv hinv =>
    cases h
    obtain ⟨i, hi, hinv⟩ := Option.bind_eq_some_iff.1 hinv
    obtain ⟨u, -, hinv⟩ := Option.bind_eq_some_iff.1 hinv
    cases hinv
    exact (Table.find?_eq_some.1 hi).2
  next => cases h

theorem effect_acceptLibraryInvite {viewerId : Uuid} {inviteId : Option Uuid} {out : AcceptLibraryInviteResponse}
    (hrun : acceptLibraryInvite now db viewerId inviteId = .ok (db', out)) :
    Effect db db' (if out.idempotent then [] else [.accepted out.invite.id out.membershipLibraryId viewerId]) := by
  unfold acceptLibraryInvite at hrun
  obtain ⟨inv, hinv, hrun⟩ := bind_eq_ok.1 hrun
  obtain ⟨hmem, rfl⟩ := viewerInvitation_ok hinv
  split at hrun
  · cases hrun
    exact Change.same.effect
  · obtain ⟨hpending, hrun⟩ := check_eq_ok.1 hrun
    have hpending := not_not.1 hpending
    obtain ⟨-, -, hrun⟩ := bind_eq_ok.1 hrun
    obtain ⟨mid, hmid, hrun⟩ := bind_eq_ok.1 hrun
    obtain ⟨final, hfinal, hrun⟩ := bind_eq_ok.1 hrun
    obtain ⟨updated, hupdated, hrun⟩ := bind_eq_ok.1 hrun
    cases hrun
    rw [if_neg Bool.false_ne_true, loadInvitationProjection_id hupdated]
    have hchange : Change db mid [.accepted inv.id inv.libraryId inv.inviteeUserId] := by
      split at hmid
      · obtain ⟨hlibrary, memberships, hins, rfl⟩ := insertMembership_ok hmid
        exact .join hins hlibrary
      · cases hmid
        exact .note _ fun _ _ => rfl
    obtain ⟨hrespond, hrest⟩ := respond_ok (by rw [hchange.invitations]; exact hmem) hpending (by decide) hfinal
    exact ⟨mid, hchange, hrespond, hrest⟩

theorem effect_declineLibraryInvite {viewerId : Uuid} {inviteId : Option Uuid} {out : DeclineLibraryInviteResponse}
    (hrun : declineLibraryInvite now db viewerId inviteId = .ok (db', out)) : Effect db db' [] := by
  unfold declineLibraryInvite at hrun
  obtain ⟨inv, hinv, hrun⟩ := bind_eq_ok.1 hrun
  obtain ⟨hmem, -⟩ := viewerInvitation_ok hinv
  split at hrun
  · cases hrun
    exact Change.same.effect
  · obtain ⟨hpending, hrun⟩ := check_eq_ok.1 hrun
    obtain ⟨-, -, hrun⟩ := bind_eq_ok.1 hrun
    obtain ⟨final, hfinal, hrun⟩ := bind_eq_ok.1 hrun
    obtain ⟨updated, -, hrun⟩ := bind_eq_ok.1 hrun
    cases hrun
    exact ⟨db, .same, respond_ok hmem (not_not.1 hpending) (by decide) hfinal⟩

theorem effect_revokeLibraryInvite {viewerId : Uuid} {inviteId : Option Uuid}
    (hrun : revokeLibraryInvite now db viewerId inviteId = .ok db') : Effect db db' [] := by
  unfold revokeLibraryInvite at hrun
  split at hrun
  · cases hrun
  next inv hinv =>
    obtain ⟨id, -, hfind⟩ := Option.bind_eq_some_iff.1 hinv
    have hmem := (Table.find?_eq_some.1 hfind).1
    split at hrun
    · cases hrun
    · obtain ⟨-, -, hrun⟩ := bind_eq_ok.1 hrun
      split at hrun
      · cases hrun
        exact Change.same.effect
      · obtain ⟨hpending, hrun⟩ := check_eq_ok.1 hrun
        obtain ⟨-, -, hrun⟩ := bind_eq_ok.1 hrun
        exact ⟨db, .same, respond_ok hmem (not_not.1 hpending) (by decide) hrun⟩

theorem run_spec (h : Governed db log) {command : GovernanceCommand} {facts : List GovernanceFact}
    (hrun : command.run now db = .ok (db', facts)) : Effect db db' facts := by
  cases command with
  | signIn =>
    obtain ⟨⟨_, _, _⟩, hcall, heq⟩ := map_eq_ok.1 hrun
    cases heq
    exact effect_ensureUserAndDefaultLibrary h hcall
  | ensureSystem =>
    obtain ⟨⟨_, _, _⟩, hcall, heq⟩ := map_eq_ok.1 hrun
    cases heq
    exact effect_ensureSystemLibrary hcall
  | create =>
    obtain ⟨⟨_, _, _⟩, hcall, heq⟩ := map_eq_ok.1 hrun
    cases heq
    exact effect_createLibrary hcall
  | rename =>
    obtain ⟨⟨_, _⟩, hcall, heq⟩ := map_eq_ok.1 hrun
    cases heq
    exact effect_renameLibrary hcall
  | delete =>
    obtain ⟨_, hcall, heq⟩ := map_eq_ok.1 hrun
    cases heq
    exact effect_deleteLibrary hcall
  | updateRole =>
    obtain ⟨⟨_, _⟩, hcall, heq⟩ := map_eq_ok.1 hrun
    cases heq
    exact effect_updateLibraryMemberRole h hcall
  | remove =>
    obtain ⟨⟨_, _⟩, hcall, heq⟩ := map_eq_ok.1 hrun
    cases heq
    exact effect_removeLibraryMember h hcall
  | transfer =>
    obtain ⟨⟨_, _⟩, hcall, heq⟩ := map_eq_ok.1 hrun
    cases heq
    exact effect_transferLibraryOwnership h hcall
  | invite =>
    obtain ⟨⟨_, _⟩, hcall, heq⟩ := map_eq_ok.1 hrun
    cases heq
    exact effect_createLibraryInvite hcall
  | accept =>
    obtain ⟨⟨_, _⟩, hcall, heq⟩ := map_eq_ok.1 hrun
    cases heq
    exact effect_acceptLibraryInvite hcall
  | decline =>
    obtain ⟨⟨_, _⟩, hcall, heq⟩ := map_eq_ok.1 hrun
    cases heq
    exact effect_declineLibraryInvite hcall
  | revoke =>
    obtain ⟨_, hcall, heq⟩ := map_eq_ok.1 hrun
    cases heq
    exact effect_revokeLibraryInvite hcall

end Commands

/-! ## Every run -/

/-- **A step keeps every library governed and settles invitations once.** -/
theorem Governed.step {s t : GovernanceState} {e : Instant × GovernanceCommand} (h : Governed s.db s.log)
    (hs : s.next e = .some t) : Governed t.db t.log ∧
      ∀ i ∈ s.db.invitations.rows, ∀ j ∈ t.db.invitations.rows, j.id = i.id → Settled i j := by
  unfold GovernanceState.next at hs
  split at hs
  next db' facts hrun =>
    obtain rfl := Option.some.inj hs
    obtain ⟨mid, hchange, hinvitations, hrest⟩ := run_spec h hrun
    have hmid := h.change hchange
    constructor
    · rw [hrest]
      exact ⟨hmid.owner, hmid.library, hmid.stands⟩
    · rw [← hchange.invitations]
      exact hinvitations.settled
  next =>
    obtain rfl := Option.some.inj hs
    exact ⟨h, fun i hi j hj hid => .inl (Table.eq_of_key hj hi hid)⟩

theorem Governed.noLibraries : Governed noLibraries.db noLibraries.log where
  owner _ hl := by cases hl
  library _ hm := by cases hm
  stands _ hm := by cases hm

theorem governed_of_reachable {s : GovernanceState} (hs : governanceSystem.Reachable s) : Governed s.db s.log :=
  hs.invariant (I := fun s => Governed s.db s.log) (fun s h0 => by rw [h0]; exact .noLibraries)
    fun _ _ _ hstep h => (h.step hstep).1

theorem settled_stays : ∀ {s : GovernanceState} {tr}, Governed s.db s.log → governanceSystem.Run s tr →
    ∀ i ∈ s.db.invitations.rows, i.status ≠ .pending →
      (∀ x ∈ tr, ∃ j ∈ x.2.db.invitations.rows, j.id = i.id) → i ∈ (last s tr).db.invitations.rows
  | _, [], _, _, _, hi, _, _ => hi
  | s, (e, t) :: tr, h, hrun, i, hi, hstatus, hthere => by
    obtain ⟨ht, hsettled⟩ := h.step hrun.1
    obtain ⟨j, hj, hid⟩ := hthere (e, t) List.mem_cons_self
    obtain rfl | ⟨hpending, -⟩ := hsettled i hi j hj hid
    · exact settled_stays ht hrun.2 j hj hstatus fun x hx => hthere x (List.mem_cons_of_mem _ hx)
    · exact absurd hpending hstatus

/-- **Library governance**, in every state a run of commands reaches: an owner is
an admin member, memberships and pending invitations are unique, an invitation
is settled at most once, and a member who does not own the library owned it or
accepted an invitation to it, and was not dismissed since. -/
theorem library_governance {s : GovernanceState} (hs : governanceSystem.Reachable s) :
    (∀ l ∈ s.db.libraries.rows, ∃ m ∈ s.db.memberships.rows,
      m.libraryId = l.id ∧ m.userId = l.ownerUserId ∧ m.role = .admin) ∧
    (∀ m ∈ s.db.memberships.rows, ∀ m' ∈ s.db.memberships.rows,
      m.libraryId = m'.libraryId → m.userId = m'.userId → m = m') ∧
    (∀ i ∈ s.db.invitations.rows, ∀ i' ∈ s.db.invitations.rows, i.status = .pending → i'.status = .pending →
      i.libraryId = i'.libraryId → i.inviteeUserId = i'.inviteeUserId → i = i') ∧
    (∀ e t, s.next e = .some t →
      ∀ i ∈ s.db.invitations.rows, ∀ j ∈ t.db.invitations.rows, j.id = i.id → Settled i j) ∧
    (∀ tr, governanceSystem.Run s tr → ∀ i ∈ s.db.invitations.rows, i.status ≠ .pending →
      (∀ x ∈ tr, ∃ j ∈ x.2.db.invitations.rows, j.id = i.id) → i ∈ (last s tr).db.invitations.rows) ∧
    (∀ m ∈ s.db.memberships.rows, (∀ l ∈ s.db.libraries.rows, l.id = m.libraryId → l.ownerUserId ≠ m.userId) →
      stands m.libraryId m.userId s.log = true) := by
  have h := governed_of_reachable hs
  refine ⟨h.owner, ?_, ?_, fun e t hstep => (h.step hstep).2, fun tr hrun => settled_stays h hrun,
    fun m hm _ => h.stands m hm⟩
  · intro m hm m' hm' hlib huser
    exact Table.eq_of_key hm hm' (by rw [Membership.key, Membership.key, hlib, huser])
  · intro i hi i' hi' hpending hpending' hlib huser
    refine s.db.invitations.unique i hi i' hi' ?_
    simp [invitationSchema, hpending, hpending', hlib, huser]

/-! ## Handing a library over -/

/-- User 1 creates a library, invites user 2 and hands the library over. -/
def handedOver : List (Instant × GovernanceCommand) :=
  [(0, .signIn 1 .none 10), (0, .signIn 2 .none 20), (1, .create 1 ⟨7, "Shared".toList⟩),
    (2, .invite 1 7 (.user (.some 2)) .member true 30), (3, .accept 2 (.some 30)), (4, .transfer 1 7 2)]

def handedOverState : GovernanceState := last noLibraries (replay GovernanceState.next noLibraries handedOver)

theorem reachable_handedOverState : governanceSystem.Reachable handedOverState :=
  System.reachable_replay handedOver rfl

theorem library_governance_handedOver :
    handedOverState.db.libraries.rows.length = 3 ∧ stands 7 1 handedOverState.log = true ∧
      ∀ l ∈ handedOverState.db.libraries.rows, ∃ m ∈ handedOverState.db.memberships.rows,
        m.libraryId = l.id ∧ m.userId = l.ownerUserId ∧ m.role = .admin :=
  ⟨by decide +kernel, by decide +kernel, (library_governance reachable_handedOverState).1⟩

/-- The former owner stays, and never was invited. -/
theorem former_owner_uninvited :
    governanceSystem.Reachable handedOverState ∧
    (∃ m ∈ handedOverState.db.memberships.rows, m.libraryId = 7 ∧ m.userId = 1) ∧
    (∃ l ∈ handedOverState.db.libraries.rows, l.id = 7 ∧ l.ownerUserId = 2) ∧
    (∀ i ∈ handedOverState.db.invitations.rows, i.inviteeUserId ≠ 1) ∧
    (∀ invitationId, .accepted invitationId 7 1 ∉ handedOverState.log) := by
  refine ⟨reachable_handedOverState, by decide +kernel, by decide +kernel, by decide +kernel, ?_⟩
  have hlog : handedOverState.log = [.owned 7 2, .accepted 30 7 2, .owned 7 1, .owned 20 2, .owned 10 1] := by
    decide +kernel
  intro invitationId
  rw [hlog]
  simp

end Nexus.Libraries
