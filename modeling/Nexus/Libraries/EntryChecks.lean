/-
The parts of an entries transaction that only lock, read and check: they write
nothing, whatever they read, and what they return is a library of the right
kind.
-/
import Nexus.Lib.ExceptFacts
import Nexus.Libraries.EntryRows

namespace Nexus.LibraryEntries
open Relational RowLocks ExceptFacts Nexus.Libraries

variable {W : World} {α : Type}

/-- The weakest precondition of an entries transaction. -/
abbrev EntryWp (W : World) (Q : α → Assn Row Entries EntryWrite) (p : EntryTx α) : Assn Row Entries EntryWrite :=
  Wp entryStorage (entryDiscipline W) Q p

abbrev EntryStable (W : World) (I : Assn Row Entries EntryWrite) : Prop := Stable entryStorage (entryDiscipline W) I

/-! ## Checks and locks write nothing -/

/-- No statement of the part writes. -/
abbrev ReadsOnly (p : EntryTx α) : Prop := Quiet (fun _ => True) p

theorem readsOnly_pure {a : α} : ReadsOnly (pure a) := trivial

theorem readsOnly_raise {code message} : ReadsOnly (raise code message : EntryTx α) := trivial

theorem quiet_govern {x : Except Abort α} : Quiet (fun a => x = .ok a) (govern x) := by
  refine Quiet.ofExcept fun a ha => ?_
  cases x with
  | ok b => simpa [Except.mapError] using ha
  | error e => simp [Except.mapError] at ha

theorem readsOnly_govern {x : Except Abort α} : ReadsOnly (govern x) := quiet_govern.mono fun _ _ => trivial

theorem readsOnly_query {f : Entries → Env → α} : ReadsOnly (.query f) := Quiet.query fun _ _ => trivial

theorem readsOnly_lockRow {r : Row} : ReadsOnly (.lockRow r) := Quiet.lockRow trivial

theorem ReadsOnly.bind {β : Type} {p : EntryTx α} {f : α → EntryTx β} (hp : ReadsOnly p) (hf : ∀ a, ReadsOnly (f a)) :
    ReadsOnly (p >>= f) := Quiet.bind (fun a _ => hf a) hp

theorem readsOnly_ite {c : Prop} [Decidable c] {p q : EntryTx α} (hp : ReadsOnly p) (hq : ReadsOnly q) :
    ReadsOnly (if c then p else q) := by
  split
  · exact hp
  · exact hq

theorem readsOnly_raiseIfLocked {m : Uuid} : ReadsOnly (raiseIfLockedMediaTeardownPending m) :=
  readsOnly_query.bind fun _ => readsOnly_ite readsOnly_raise readsOnly_pure

theorem readsOnly_raiseIfTeardown {m : Uuid} : ReadsOnly (raiseIfMediaTeardownPending W m) :=
  readsOnly_lockRow.bind fun _ => readsOnly_ite readsOnly_raiseIfLocked readsOnly_pure

theorem readsOnly_lockAuthorized {u m : Uuid} {a : FilingAuthorization} :
    ReadsOnly (lockAuthorizedMediaForFiling W u m a) :=
  readsOnly_lockRow.bind fun _ => readsOnly_query.bind fun _ => readsOnly_ite readsOnly_raise readsOnly_raiseIfLocked

theorem readsOnly_lockRows {ids : List Uuid} {row : Uuid → Row} : ReadsOnly (ids.forM fun id => .lockRow (row id)) :=
  Quiet.forM fun _ _ => readsOnly_lockRow

theorem readsOnly_lockMediaRows {ids : List Uuid} : ReadsOnly (lockMediaRowsInOrder W ids) :=
  readsOnly_lockRows.bind fun _ => readsOnly_pure

theorem readsOnly_lockLibraryRows {ids : List Uuid} : ReadsOnly (lockLibraryRowsInOrder W ids) :=
  readsOnly_lockRows.bind fun _ => readsOnly_pure

theorem readsOnly_requireShare {u l : Uuid} : ReadsOnly (requireShareEntitlementForAccessIncrease u l) :=
  readsOnly_query.bind fun _ => readsOnly_query.bind fun _ => readsOnly_ite readsOnly_raise readsOnly_pure

theorem readsOnly_requireMutable {b : Bool} {ctx : LibraryMembershipContext} : ReadsOnly (requireMutable b ctx) :=
  readsOnly_govern.bind fun _ => (readsOnly_ite readsOnly_govern readsOnly_pure).bind fun _ => readsOnly_govern

theorem isDefault_of_findLibrary {l : Library} {id : Uuid} (h : W.governance.findLibrary id = .some l) :
    W.isDefault id = l.isDefault := by
  obtain ⟨hl, rfl⟩ := Table.find?_eq_some.1 h
  cases hd : l.isDefault with
  | true => exact List.any_eq_true.2 ⟨l, hl, by simp [hd, librarySchema]⟩
  | false =>
    refine Bool.eq_false_iff.2 fun hany => ?_
    obtain ⟨l', hl', h'⟩ := List.any_eq_true.1 hany
    simp only [Bool.and_eq_true, beq_iff_eq] at h'
    obtain rfl := W.governance.libraries.toTable.eq_of_key hl' hl h'.1
    simp [hd] at h'

theorem quiet_libraryForMember {u l : Uuid} :
    Quiet (fun ctx => ctx.id = l ∧ W.isDefault l = ctx.isDefault) (libraryForMember W u l) := by
  refine Quiet.bind (P := fun x => ∃ env, x = Libraries.lockLibraryForMember (W.db env) u l)
    (fun x hx => ?_) (Quiet.query fun _ env => ⟨env, rfl⟩)
  obtain ⟨env, rfl⟩ := hx
  refine quiet_govern.mono fun ctx hctx => ?_
  simp only [Libraries.lockLibraryForMember] at hctx
  split at hctx
  next library _ hlibrary _ =>
    obtain rfl := Except.ok.inj hctx
    have hfind : W.governance.findLibrary l = .some library := hlibrary
    exact ⟨(Table.find?_eq_some.1 hfind).2, isDefault_of_findLibrary hfind⟩
  next => cases hctx

theorem quiet_lockLibraryForMember {u l : Uuid} :
    Quiet (fun ctx => ctx.id = l ∧ W.isDefault l = ctx.isDefault) (lockLibraryForMember W u l) :=
  Quiet.bind (P := fun _ => True) (fun _ _ => quiet_libraryForMember) (Quiet.lockRow trivial)

theorem quiet_defaultLibraryId {u : Uuid} : Quiet (fun l => W.isDefault l = true) (defaultLibraryIdForUser W u) := by
  simp only [defaultLibraryIdForUser, findDefaultLibraryId]
  cases h : W.governance.libraries.rows.find? fun l => l.ownerUserId == u && l.isDefault with
  | none => exact trivial
  | some l =>
    have hl := List.mem_of_find?_eq_some h
    have hp := List.find?_some h
    simp only [Bool.and_eq_true] at hp
    exact List.any_eq_true.2 ⟨l, hl, by simp [hp.2]⟩

theorem resolveDestination_ok {env : Env} {u l l' : Uuid} (h : resolveDestination W env u l = .ok l') :
    l' = l ∧ W.isDefault l = false := by
  simp only [resolveDestination] at h
  cases hl : W.governance.findLibrary l with
  | none => simp [hl, refuse] at h
  | some library =>
    simp only [hl] at h
    split at h
    · simp [refuse] at h
    · split at h
      · simp [refuse] at h
      next hdefault =>
        split at h
        · simp [refuse] at h
        · exact ⟨(Except.ok.inj h).symm, by rw [isDefault_of_findLibrary hl]; simpa using hdefault⟩

theorem resolveDestinations_ok {env : Env} {u : Uuid} : ∀ {ids targets : List Uuid},
    ids.mapM' (fun id => resolveDestination W env u id) = .ok targets →
      targets = ids ∧ ∀ l ∈ targets, W.isDefault l = false
  | [], targets, h => by
    obtain rfl : [] = targets := by simpa [List.mapM', pure, Except.pure] using h
    simp
  | id :: ids, targets, h => by
    obtain ⟨l, hl, h⟩ := bind_eq_ok.1 h
    obtain ⟨ls, hls, h⟩ := bind_eq_ok.1 h
    obtain rfl := Except.ok.inj h
    obtain ⟨rfl, hd⟩ := resolveDestination_ok hl
    obtain ⟨rfl, hds⟩ := resolveDestinations_ok hls
    exact ⟨rfl, List.forall_mem_cons.2 ⟨hd, hds⟩⟩

theorem quiet_resolve {u : Uuid} {ids : List Uuid} :
    Quiet (fun targets => ∀ l ∈ targets, W.isDefault l = false) (resolveWritableNonDefaultLibraryIds W u ids) := by
  simp only [resolveWritableNonDefaultLibraryIds]
  split
  · exact fun l hl => by simp at hl
  · split
    · exact trivial
    · refine Quiet.bind (P := fun x => ∃ env, x = ids.mapM' fun id => resolveDestination W env u id)
        (fun x hx => ?_) (Quiet.query fun _ env => ⟨env, rfl⟩)
      obtain ⟨env, rfl⟩ := hx
      exact quiet_govern.mono fun targets h => (resolveDestinations_ok h).2

end Nexus.LibraryEntries
