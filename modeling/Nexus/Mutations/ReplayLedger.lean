/-
`services/resource_mutation_replay.py`: the ledger of client mutations, and
the shape every command keyed by a `clientMutationId` gives its transaction.

A memo is found by viewer, scope and client mutation id. One recorded for the
same request answers the command without a write; one recorded for another
request refuses it. The command writes its memo in the transaction that makes
its effect. `changed_lanes`, which nothing reads back, is left out, and so are
the length checks of the table, which the callers' arguments meet.
-/
import Nexus.Primitives
import Nexus.Lib.ExceptFacts
import Nexus.Lib.Table

namespace Nexus.Mutations
open Relational ExceptFacts

/-- `hashlib.sha256(request_bytes).hexdigest()` -/
structure Sha256 where
  hexdigest : Bytes → Text

structure MutationKey where
  viewerId : Uuid
  mutationScope : Text
  clientMutationId : Text
  deriving DecidableEq, Repr

/-- A row of `resource_mutations`, under `uix_resource_mutations_client_id`. -/
structure ResourceMutation (R : Type) where
  key : MutationKey
  requestHash : Text
  responseJson : R
  deriving DecidableEq, Repr

abbrev Ledger (R : Type) := Table (ResourceMutation R) ResourceMutation.key

section Ledger

variable {σ R A : Type} (sha : Sha256)

/-- `lookup_replay`: the memoized response, or none on first sight. -/
def lookupReplay (ledger : Ledger R) (key : MutationKey) (requestBytes : Bytes) : Except Abort (Option R) :=
  match ledger.find? key with
  | .none => .ok .none
  | .some memo =>
    if memo.requestHash ≠ sha.hexdigest requestBytes then
      .error (.api ⟨.idempotencyKeyReplayMismatch, "Resource mutation id was reused with a different request"⟩)
    else .ok (.some memo.responseJson)

/-- `record_replay`, as the commit flushes it. -/
def recordReplay (ledger : Ledger R) (key : MutationKey) (requestBytes : Bytes) (response : R) :
    Except Abort (Ledger R) :=
  match ledger.insert? ⟨key, sha.hexdigest requestBytes, response⟩ with
  | .none => .error .database
  | .some ledger => .ok ledger

/-- One attempt of a memoized command: `serve` answers a replay from the memo,
`apply` makes the effect and says what to memoize and what to answer. -/
def memoized (key : MutationKey) (requestBytes : Bytes) (serve : σ → R → Except Abort A)
    (apply : σ → Except Abort (σ × R × A)) (s : σ × Ledger R) : Except Abort ((σ × Ledger R) × A) := do
  match ← lookupReplay sha s.2 key requestBytes with
  | .some response =>
    let answer ← serve s.1 response
    .ok (s, answer)
  | .none =>
    let (next, response, answer) ← apply s.1
    let ledger ← recordReplay sha s.2 key requestBytes response
    .ok ((next, ledger), answer)

variable {sha} {ledger ledger' : Ledger R} {key : MutationKey} {requestBytes : Bytes}

theorem lookupReplay_eq_none : lookupReplay sha ledger key requestBytes = .ok .none ↔ ledger.find? key = .none := by
  unfold lookupReplay
  cases ledger.find? key with
  | none => simp only
  | some memo => simp only [check_eq_ok, Except.ok.injEq, reduceCtorEq, and_false]

theorem lookupReplay_eq_some {response : R} :
    lookupReplay sha ledger key requestBytes = .ok (.some response) ↔
      ledger.find? key = .some ⟨key, sha.hexdigest requestBytes, response⟩ := by
  unfold lookupReplay
  cases hfind : ledger.find? key with
  | none => simp only [Except.ok.injEq, reduceCtorEq]
  | some memo =>
    obtain ⟨-, hkey⟩ := Table.find?_eq_some.1 hfind
    obtain ⟨key', hash, stored⟩ := memo
    cases hkey
    simp only [check_eq_ok, Except.ok.injEq, Option.some.injEq, not_not, ResourceMutation.mk.injEq, true_and]

theorem recordReplay_eq_ok {response : R} :
    recordReplay sha ledger key requestBytes response = .ok ledger' ↔
      ledger.insert? ⟨key, sha.hexdigest requestBytes, response⟩ = .some ledger' := by
  unfold recordReplay
  cases ledger.insert? ⟨key, sha.hexdigest requestBytes, response⟩ with
  | none => simp only [reduceCtorEq]
  | some t => simp only [Except.ok.injEq, Option.some.injEq]

/-- Of the request bytes only their digest is read. -/
theorem memoized_congr {sha' : Sha256} {bytes : Bytes} {serve : σ → R → Except Abort A}
    {apply : σ → Except Abort (σ × R × A)} {s : σ × Ledger R} (h : sha.hexdigest requestBytes = sha'.hexdigest bytes) :
    memoized sha key requestBytes serve apply s = memoized sha' key bytes serve apply s := by
  simp only [memoized, lookupReplay, recordReplay, h]

/-- **A memoized command answers from its memo, or makes its effect and its memo.** -/
theorem memoized_eq_ok {serve : σ → R → Except Abort A} {apply : σ → Except Abort (σ × R × A)} {s t : σ × Ledger R}
    {answer : A} : memoized sha key requestBytes serve apply s = .ok (t, answer) ↔
      (∃ response, s.2.find? key = .some ⟨key, sha.hexdigest requestBytes, response⟩ ∧
        serve s.1 response = .ok answer ∧ t = s) ∨
      (s.2.find? key = .none ∧ ∃ response, apply s.1 = .ok (t.1, response, answer) ∧
        s.2.insert? ⟨key, sha.hexdigest requestBytes, response⟩ = .some t.2) := by
  unfold memoized
  rw [bind_eq_ok]
  constructor
  · rintro ⟨found, hlookup, h⟩
    cases found with
    | some response =>
      obtain ⟨a, hserve, h⟩ := bind_eq_ok.1 h
      cases h
      exact .inl ⟨response, lookupReplay_eq_some.1 hlookup, hserve, rfl⟩
    | none =>
      obtain ⟨⟨next, response, a⟩, happly, h⟩ := bind_eq_ok.1 h
      obtain ⟨ledger, hrecord, h⟩ := bind_eq_ok.1 h
      cases h
      exact .inr ⟨lookupReplay_eq_none.1 hlookup, response, happly, recordReplay_eq_ok.1 hrecord⟩
  · rintro (⟨response, hfind, hserve, rfl⟩ | ⟨hfind, response, happly, hinsert⟩)
    · exact ⟨.some response, lookupReplay_eq_some.2 hfind, bind_eq_ok.2 ⟨answer, hserve, rfl⟩⟩
    · refine ⟨.none, lookupReplay_eq_none.2 hfind, bind_eq_ok.2 ⟨(t.1, response, answer), happly, ?_⟩⟩
      exact bind_eq_ok.2 ⟨t.2, recordReplay_eq_ok.2 hinsert, rfl⟩

theorem guarded_memoized_eq_ok {guard : σ → Except Abort Unit} {serve : σ → R → Except Abort A}
    {apply : σ → Except Abort (σ × R × A)} {s : σ × Ledger R} {r : (σ × Ledger R) × A} :
    (guard s.1 = .ok () ∧ memoized sha key requestBytes serve apply s = .ok r) ↔
      memoized sha key requestBytes (fun s response => do guard s; serve s response) (fun s => do guard s; apply s) s =
        .ok r := by
  obtain ⟨t, answer⟩ := r
  simp only [memoized_eq_ok, bind_eq_ok]
  constructor
  · rintro ⟨hguard, ⟨response, hfind, hserve, hsame⟩ | ⟨hfind, response, happly, hinsert⟩⟩
    · exact .inl ⟨response, hfind, ⟨(), hguard, hserve⟩, hsame⟩
    · exact .inr ⟨hfind, response, ⟨(), hguard, happly⟩, hinsert⟩
  · rintro (⟨response, hfind, ⟨_, hguard, hserve⟩, hsame⟩ | ⟨hfind, response, ⟨_, hguard, happly⟩, hinsert⟩)
    · exact ⟨hguard, .inl ⟨response, hfind, hserve, hsame⟩⟩
    · exact ⟨hguard, .inr ⟨hfind, response, happly, hinsert⟩⟩

end Ledger

end Nexus.Mutations
