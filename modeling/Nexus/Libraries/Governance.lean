/-
Library governance: `services/library_governance.py`,
`services/library_invitations.py` and the bootstrap on first login.

A command is one transaction over four tables. A handle stands for the id it
seals, and `.none` for one that does not unseal. What a command does to other
tables (collection revisions, entries, Dossiers) is not told.
-/
import Nexus.Base
import Nexus.Lib.Constrained

namespace Nexus.Libraries
open Relational

/-! ## Rows -/

inductive LibraryRole
  | admin
  | member
  deriving DecidableEq, Repr

inductive LibraryInvitationStatus
  | pending
  | accepted
  | declined
  | revoked
  deriving DecidableEq, Repr

structure User where
  id : Uuid
  email : Option (List Char)
  displayName : Option (List Char)
  deriving DecidableEq, Repr

structure Library where
  id : Uuid
  ownerUserId : Uuid
  name : List Char
  color : Option (List Char)
  isDefault : Bool
  systemKey : Option (List Char)
  createdAt : Instant
  updatedAt : Instant
  deriving DecidableEq, Repr

structure Membership where
  libraryId : Uuid
  userId : Uuid
  role : LibraryRole
  createdAt : Instant
  deriving DecidableEq, Repr

structure LibraryInvitation where
  id : Uuid
  libraryId : Uuid
  inviterUserId : Uuid
  inviteeUserId : Uuid
  role : LibraryRole
  status : LibraryInvitationStatus
  createdAt : Instant
  respondedAt : Option Instant
  deriving DecidableEq, Repr

def Membership.key (m : Membership) : Uuid × Uuid := (m.libraryId, m.userId)

def userSchema : Schema User Uuid where
  key u := u.id
  check _ := true
  clash a b := a.email.isSome && a.email == b.email

/-- `ck_libraries_name_length`, `ck_libraries_system_key`,
`uix_libraries_system_key` and `uix_libraries_one_default_per_user`. -/
def librarySchema : Schema Library Uuid where
  key l := l.id
  check l := decide (1 ≤ l.name.length ∧ l.name.length ≤ 100) &&
    l.systemKey.all fun key => decide (1 ≤ key.length ∧ key.length ≤ 80)
  clash a b := (a.systemKey.isSome && a.systemKey == b.systemKey) ||
    (a.isDefault && b.isDefault && a.ownerUserId == b.ownerUserId)

/-- `ck_library_invitations_not_self`, `ck_library_invitations_responded_at` and
`uix_library_invitations_pending_once`. -/
def invitationSchema : Schema LibraryInvitation Uuid where
  key i := i.id
  check i := i.inviterUserId != i.inviteeUserId && ((i.status == .pending) == i.respondedAt.isNone)
  clash a b := a.status == .pending && b.status == .pending && a.libraryId == b.libraryId &&
    a.inviteeUserId == b.inviteeUserId

structure GovernanceDb where
  users : Store userSchema
  libraries : Store librarySchema
  memberships : Table Membership Membership.key
  invitations : Store invitationSchema

def refuse {α : Type} (code : ApiErrorCode) (message : String) : Except Abort α := .error (.api ⟨code, message⟩)

/-- A statement that fails on a constraint. -/
def orDatabase {α : Type} : Option α → Except Abort α
  | .some a => .ok a
  | .none => .error .database

namespace GovernanceDb

def findUser (db : GovernanceDb) (id : Uuid) : Option User := db.users.toTable.find? id

def findLibrary (db : GovernanceDb) (id : Uuid) : Option Library := db.libraries.toTable.find? id

def findMembership (db : GovernanceDb) (libraryId userId : Uuid) : Option Membership :=
  db.memberships.find? (libraryId, userId)

/-- `INSERT INTO memberships`, whose library and user are there. -/
def insertMembership (db : GovernanceDb) (m : Membership) : Except Abort GovernanceDb :=
  if (db.findUser m.userId).isNone ∨ (db.findLibrary m.libraryId).isNone then .error .database
  else (orDatabase (db.memberships.insert? m)).map fun memberships => { db with memberships }

def setRole (db : GovernanceDb) (libraryId userId : Uuid) (role : LibraryRole) : GovernanceDb :=
  let isTarget (m : Membership) : Bool := m.libraryId == libraryId && m.userId == userId
  { db with memberships := db.memberships.updateWhere isTarget fun m => { m with role } }

/-- `INSERT INTO libraries`, whose owner is there. -/
def insertLibrary (db : GovernanceDb) (l : Library) : Except Abort GovernanceDb :=
  if (db.findUser l.ownerUserId).isNone then .error .database
  else (orDatabase (db.libraries.insert? l)).map fun libraries => { db with libraries }

end GovernanceDb

/-! ## The library's row and its guards -/

/-- The library, and the viewer's role in it. -/
structure LibraryMembershipContext extends Library where
  role : LibraryRole
  deriving DecidableEq, Repr

def lockLibraryForMember (db : GovernanceDb) (viewerId libraryId : Uuid) : Except Abort LibraryMembershipContext :=
  match db.findLibrary libraryId, db.findMembership libraryId viewerId with
  | .some l, .some m => .ok ⟨l, m.role⟩
  | _, _ => refuse .libraryNotFound "Library not found"

def requireAdmin (role : LibraryRole) : Except Abort Unit :=
  if role ≠ .admin then refuse .forbidden "Admin access required" else .ok ()

def requireNonDefault (isDefault : Bool) : Except Abort Unit :=
  if isDefault then refuse .defaultLibraryForbidden "Operation not allowed on default library" else .ok ()

def requireNotSystem (systemKey : Option (List Char)) : Except Abort Unit :=
  if systemKey.isSome then refuse .libraryForbidden "System library cannot be modified" else .ok ()

def repairOwnerAdminInvariant (now : Instant) (db : GovernanceDb) (libraryId ownerUserId : Uuid) :
    Except Abort (GovernanceDb × Bool) :=
  match db.findMembership libraryId ownerUserId with
  | .none => (db.insertMembership ⟨libraryId, ownerUserId, .admin, now⟩).map fun db => (db, true)
  | .some m => if m.role ≠ .admin then .ok (db.setRole libraryId ownerUserId .admin, true) else .ok (db, false)

/-- `casefold` of a letter of ASCII; no other folds to one of `all`. -/
def foldAscii (c : Char) : Char := if 'A'.toNat ≤ c.toNat ∧ c.toNat ≤ 'Z'.toNat then Char.ofNat (c.toNat + 32) else c

def validateLibraryName (name : List Char) : Except Abort (List Char) :=
  let name := pythonStrip name
  if name = [] ∨ 100 < name.length then refuse .nameInvalid "Name must be 1-100 characters"
  else if name.map foldAscii = "all".toList then refuse .nameInvalid "All is reserved for the All view."
  else .ok name

/-! ## Answers -/

/-- `LibraryOut`, with what `_library_capabilities` derives. -/
structure LibraryOut extends LibraryMembershipContext where
  canRename : Bool
  canDelete : Bool
  canEditEntries : Bool
  canManageMembers : Bool
  canTransferOwnership : Bool
  deriving DecidableEq, Repr

def libraryOut (viewerUserId : Uuid) (ctx : LibraryMembershipContext) : LibraryOut :=
  let mutable := ctx.systemKey.isNone && !ctx.isDefault
  let isOwner := viewerUserId == ctx.ownerUserId
  { ctx with
    canRename := mutable && ctx.role == .admin
    canDelete := mutable && isOwner
    canEditEntries := mutable && ctx.role == .admin
    canManageMembers := mutable && ctx.role == .admin
    canTransferOwnership := mutable && isOwner }

structure LibraryMemberOut where
  userId : Uuid
  role : LibraryRole
  isOwner : Bool
  email : Option (List Char)
  displayName : Option (List Char)
  createdAt : Instant
  deriving DecidableEq, Repr

/-- `memberships m JOIN users u` -/
def findMember (db : GovernanceDb) (ownerUserId libraryId userId : Uuid) : Option LibraryMemberOut := do
  let m ← db.findMembership libraryId userId
  let u ← db.findUser userId
  .some ⟨userId, m.role, userId == ownerUserId, u.email, u.displayName, m.createdAt⟩

structure LibraryInvitationOut extends LibraryInvitation where
  inviteeEmail : Option (List Char)
  inviteeDisplayName : Option (List Char)
  deriving DecidableEq, Repr

/-- `library_invitations i JOIN users u` -/
def findInvitation (db : GovernanceDb) (id : Uuid) : Option LibraryInvitationOut := do
  let i ← db.invitations.toTable.find? id
  let u ← db.findUser i.inviteeUserId
  .some { i with inviteeEmail := u.email, inviteeDisplayName := u.displayName }

def loadInvitationProjection (db : GovernanceDb) (id : Uuid) : Except Abort LibraryInvitationOut :=
  match findInvitation db id with
  | .some i => .ok i
  | .none => .error .defect

structure AcceptLibraryInviteResponse where
  invite : LibraryInvitationOut
  membershipLibraryId : Uuid
  membershipUserId : Uuid
  membershipRole : LibraryRole
  idempotent : Bool
  deriving DecidableEq, Repr

structure DeclineLibraryInviteResponse where
  invite : LibraryInvitationOut
  idempotent : Bool
  deriving DecidableEq, Repr

/-! ## Libraries -/

/-- `ensure_user_and_default_library`, with the id the database draws. -/
def ensureUserAndDefaultLibrary (now : Instant) (db : GovernanceDb) (userId : Uuid) (email : Option (List Char))
    (newId : Uuid) : Except Abort (GovernanceDb × Uuid × Bool) := do
  let users ← (match db.findUser userId with
    | .none => orDatabase (db.users.insert? ⟨userId, email, .none⟩)
    | .some u => if email.isSome ∧ u.email ≠ email then orDatabase (db.users.update? userId fun u => { u with email })
      else .ok db.users)
  let db := { db with users }
  let existing := db.libraries.rows.find? fun l => l.ownerUserId == userId && l.isDefault
  let db ← (match existing with
    | .some _ => .ok db
    | .none => db.insertLibrary ⟨newId, userId, "My Library".toList, .none, true, .none, now, now⟩)
  let libraryId := (existing.map fun l => l.id).getD newId
  let (db, _) ← repairOwnerAdminInvariant now db libraryId userId
  .ok (db, libraryId, existing.isNone)

structure CreateLibraryRequest where
  libraryId : Uuid
  name : List Char
  deriving DecidableEq, Repr

/-- `create_library`, and whether it created. -/
def createLibrary (now : Instant) (db : GovernanceDb) (viewerId : Uuid) (request : CreateLibraryRequest) :
    Except Abort (GovernanceDb × LibraryOut × Bool) := do
  let name ← validateLibraryName request.name
  match db.findLibrary request.libraryId with
  | .some l =>
    let role := (db.findMembership request.libraryId viewerId).map fun m => m.role
    if l.ownerUserId ≠ viewerId ∨ l.name ≠ name ∨ l.isDefault ∨ l.systemKey.isSome ∨ role ≠ .some .admin then
      refuse .resourceConflict "Library create id is already bound to a different resource"
    else .ok (db, libraryOut viewerId ⟨l, .admin⟩, false)
  | .none =>
    let l : Library := ⟨request.libraryId, viewerId, name, .none, false, .none, now, now⟩
    let db ← db.insertLibrary l
    let db ← db.insertMembership ⟨request.libraryId, viewerId, .admin, now⟩
    .ok (db, libraryOut viewerId ⟨l, .admin⟩, true)

/-- `ensure_system_library`, with the id the database draws. -/
def ensureSystemLibrary (now : Instant) (db : GovernanceDb) (systemKey name : List Char) (ownerUserId newId : Uuid) :
    Except Abort (GovernanceDb × Uuid × Bool) :=
  match db.libraries.rows.find? fun l => l.systemKey == .some systemKey with
  | .some l => .ok (db, l.id, false)
  | .none => do
    let db ← db.insertLibrary ⟨newId, ownerUserId, name, .none, false, .some systemKey, now, now⟩
    let db ← db.insertMembership ⟨newId, ownerUserId, .admin, now⟩
    .ok (db, newId, true)

def renameLibrary (now : Instant) (db : GovernanceDb) (viewerId libraryId : Uuid) (name : List Char) :
    Except Abort (GovernanceDb × LibraryOut) := do
  let name ← validateLibraryName name
  let ctx ← lockLibraryForMember db viewerId libraryId
  requireNonDefault ctx.isDefault
  requireNotSystem ctx.systemKey
  requireAdmin ctx.role
  let libraries ← orDatabase (db.libraries.update? libraryId fun l => { l with name, updatedAt := now })
  .ok ({ db with libraries }, libraryOut viewerId { ctx with name, updatedAt := now })

/-- `delete_library`: memberships and invitations go with the row. -/
def deleteLibrary (db : GovernanceDb) (viewerId libraryId : Uuid) : Except Abort GovernanceDb := do
  let ctx ← lockLibraryForMember db viewerId libraryId
  requireNonDefault ctx.isDefault
  requireNotSystem ctx.systemKey
  if ctx.ownerUserId ≠ viewerId then refuse .ownerRequired "Only the library owner can delete it"
  else
    .ok { db with
      libraries := db.libraries.deleteWhere fun l => l.id == libraryId
      memberships := db.memberships.deleteWhere fun m => m.libraryId == libraryId
      invitations := db.invitations.deleteWhere fun i => i.libraryId == libraryId }

/-! ## Members -/

def updateLibraryMemberRole (now : Instant) (db : GovernanceDb) (viewerId libraryId targetUserId : Uuid)
    (role : LibraryRole) : Except Abort (GovernanceDb × LibraryMemberOut) := do
  let ctx ← lockLibraryForMember db viewerId libraryId
  requireAdmin ctx.role
  requireNonDefault ctx.isDefault
  requireNotSystem ctx.systemKey
  let (db, _) ← repairOwnerAdminInvariant now db libraryId ctx.ownerUserId
  if targetUserId = ctx.ownerUserId then
    refuse .ownerExitForbidden "Cannot change owner role; transfer ownership first"
  else match findMember db ctx.ownerUserId libraryId targetUserId with
    | .none => refuse .notFound "Member not found"
    | .some target =>
      if target.role ≠ role then .ok (db.setRole libraryId targetUserId role, { target with role }) else .ok (db, target)

/-- `remove_library_member`, of oneself too, and whether a member was removed. -/
def removeLibraryMember (now : Instant) (db : GovernanceDb) (viewerId libraryId targetUserId : Uuid) :
    Except Abort (GovernanceDb × Bool) := do
  let ctx ← lockLibraryForMember db viewerId libraryId
  requireAdmin ctx.role
  requireNonDefault ctx.isDefault
  requireNotSystem ctx.systemKey
  let (db, _) ← repairOwnerAdminInvariant now db libraryId ctx.ownerUserId
  if targetUserId = ctx.ownerUserId then
    refuse .ownerExitForbidden "Cannot remove owner; transfer ownership first"
  else match db.findMembership libraryId targetUserId with
    | .none => .ok (db, false)
    | .some _ =>
      .ok ({ db with
        memberships := db.memberships.deleteWhere fun m => m.libraryId == libraryId && m.userId == targetUserId }, true)

def transferLibraryOwnership (now : Instant) (db : GovernanceDb) (viewerId libraryId newOwnerUserId : Uuid) :
    Except Abort (GovernanceDb × LibraryOut) := do
  let ctx ← lockLibraryForMember db viewerId libraryId
  requireNonDefault ctx.isDefault
  requireNotSystem ctx.systemKey
  if ctx.ownerUserId ≠ viewerId then refuse .ownerRequired "Only the library owner can transfer ownership"
  else
    let (db, _) ← repairOwnerAdminInvariant now db libraryId ctx.ownerUserId
    if newOwnerUserId = ctx.ownerUserId then .ok (db, libraryOut viewerId ctx)
    else match db.findMembership libraryId newOwnerUserId with
      | .none => refuse .ownershipTransferInvalid "Transfer target must be an existing member"
      | .some target =>
        let db := if target.role ≠ .admin then db.setRole libraryId newOwnerUserId .admin else db
        let libraries ← orDatabase (db.libraries.update? libraryId fun l =>
          { l with ownerUserId := newOwnerUserId, updatedAt := now })
        .ok ({ db with libraries },
          libraryOut viewerId { ctx with ownerUserId := newOwnerUserId, updatedAt := now, role := .admin })

/-! ## Invitations -/

inductive LibraryInvitee
  | user (userId : Option Uuid)
  | email (email : List Char)
  deriving DecidableEq, Repr

def inviteeUserId (db : GovernanceDb) : LibraryInvitee → Except Abort Uuid
  | .email email =>
    let normalized := pythonStrip email
    if normalized = [] then refuse .invalidRequest "Invitee email is required"
    else match db.users.rows.find? fun u => u.email == .some normalized with
      | .none => refuse .userNotFound "User not found"
      | .some u => .ok u.id
  | .user .none => refuse .userNotFound "User not found"
  | .user (.some userId) => if (db.findUser userId).isNone then refuse .userNotFound "User not found" else .ok userId

/-- `create_library_invite`, with the id the database draws; `canShare` is the
viewer's entitlement. -/
def createLibraryInvite (now : Instant) (db : GovernanceDb) (viewerId libraryId : Uuid) (invitee : LibraryInvitee)
    (role : LibraryRole) (canShare : Bool) (newId : Uuid) : Except Abort (GovernanceDb × LibraryInvitationOut) := do
  let ctx ← lockLibraryForMember db viewerId libraryId
  requireAdmin ctx.role
  requireNonDefault ctx.isDefault
  requireNotSystem ctx.systemKey
  let userId ← inviteeUserId db invitee
  if (db.findMembership libraryId userId).isSome then refuse .inviteMemberExists "User is already a member"
  else if db.invitations.rows.any fun i => i.libraryId == libraryId && i.inviteeUserId == userId && i.status == .pending then
    refuse .inviteAlreadyExists "Pending invitation already exists"
  else if ¬canShare then refuse .billingRequired "Sharing requires an eligible plan"
  else
    let invitations ← orDatabase
      (db.invitations.insert? ⟨newId, libraryId, viewerId, userId, role, .pending, now, .none⟩)
    let db := { db with invitations }
    let out ← loadInvitationProjection db newId
    .ok (db, out)

def requireMutableInvitationLibrary (db : GovernanceDb) (libraryId : Uuid) : Except Abort Unit :=
  match db.findLibrary libraryId with
  | .none => .error .defect
  | .some l => do
    requireNonDefault l.isDefault
    requireNotSystem l.systemKey

/-- The `UPDATE` that settles an invitation. -/
def respond (now : Instant) (db : GovernanceDb) (inviteId : Uuid) (status : LibraryInvitationStatus) :
    Except Abort GovernanceDb :=
  (orDatabase (db.invitations.update? inviteId fun i => { i with status, respondedAt := .some now })).map
    fun invitations => { db with invitations }

/-- The viewer's invitation, as `accept` and `decline` lock it. -/
def viewerInvitation (db : GovernanceDb) (viewerId : Uuid) (inviteId : Option Uuid) : Except Abort LibraryInvitationOut :=
  match (inviteId.bind (findInvitation db)).filter fun i => i.inviteeUserId == viewerId with
  | .none => refuse .inviteNotFound "Invitation not found"
  | .some i => .ok i

def acceptLibraryInvite (now : Instant) (db : GovernanceDb) (viewerId : Uuid) (inviteId : Option Uuid) :
    Except Abort (GovernanceDb × AcceptLibraryInviteResponse) := do
  let inv ← viewerInvitation db viewerId inviteId
  let role := ((db.findMembership inv.libraryId viewerId).map fun m => m.role).getD inv.role
  if inv.status = .accepted then .ok (db, ⟨inv, inv.libraryId, viewerId, role, true⟩)
  else if inv.status ≠ .pending then refuse .inviteNotPending "Invitation is not pending"
  else
    requireMutableInvitationLibrary db inv.libraryId
    let db ← (match db.findMembership inv.libraryId viewerId with
      | .none => db.insertMembership ⟨inv.libraryId, viewerId, inv.role, now⟩
      | .some _ => .ok db)
    let db ← respond now db inv.id .accepted
    let updated ← loadInvitationProjection db inv.id
    .ok (db, ⟨updated, inv.libraryId, viewerId, role, false⟩)

def declineLibraryInvite (now : Instant) (db : GovernanceDb) (viewerId : Uuid) (inviteId : Option Uuid) :
    Except Abort (GovernanceDb × DeclineLibraryInviteResponse) := do
  let inv ← viewerInvitation db viewerId inviteId
  if inv.status = .declined then .ok (db, ⟨inv, true⟩)
  else if inv.status ≠ .pending then refuse .inviteNotPending "Invitation is not pending"
  else
    requireMutableInvitationLibrary db inv.libraryId
    let db ← respond now db inv.id .declined
    let updated ← loadInvitationProjection db inv.id
    .ok (db, ⟨updated, false⟩)

def revokeLibraryInvite (now : Instant) (db : GovernanceDb) (viewerId : Uuid) (inviteId : Option Uuid) :
    Except Abort GovernanceDb :=
  match inviteId.bind db.invitations.toTable.find? with
  | .none => refuse .inviteNotFound "Invitation not found"
  | .some inv => match db.findMembership inv.libraryId viewerId with
    | .none => refuse .inviteNotFound "Invitation not found"
    | .some membership => do
      requireAdmin membership.role
      if inv.status = .revoked then .ok db
      else if inv.status ≠ .pending then refuse .inviteNotPending "Invitation is not pending"
      else
        requireMutableInvitationLibrary db inv.libraryId
        respond now db inv.id .revoked

end Nexus.Libraries
