/-
What the replay ledger gives a service over any sequence of its calls.

A `LedgerService` is a service whose accepted calls are those of `memoized`.
Between its calls other transactions write its rows, and the deletion of a
resource takes along the memos of its scopes (`delete_resource_protocol_state`);
nothing else writes the service's part of the ledger, as no two services share
a scope.

A step of a call leaves its memo, or leaves everything as it was
(`call_cases`). So a key whose memo is kept is applied once
(`applications_le`), and what a call with the same key meets later is the memo
of the first (`memo_kept`).
-/
import Nexus.Mutations.ReplayLedger
import Nexus.Lib.Run

namespace Nexus.Mutations
open Relational ExceptFacts Transition

/-- A service that answers its calls behind the ledger. -/
structure LedgerService (sha : Sha256) (C σ R A : Type) where
  key : C → MutationKey
  requestBytes : C → Bytes
  /-- the answer to a replay, with what is checked before the memo is looked up -/
  answer : C → σ → R → Except Abort A
  /-- what a call on first sight makes, memoizes and answers -/
  fresh : C → σ → Except Abort (σ × R × A)
  run : C → σ × Ledger R → Except Abort ((σ × Ledger R) × A)
  run_ok : ∀ c s r, run c s = .ok r ↔ memoized sha (key c) (requestBytes c) (answer c) (fresh c) s = .ok r

/-- What happens to a service's rows and its memos. -/
inductive LedgerEvent (C σ : Type)
  | call (c : C)
  /-- another transaction, with the memos it deletes -/
  | elsewhere (forgets : MutationKey → Bool) (write : σ → σ)

namespace LedgerService

variable {sha : Sha256} {C σ R A : Type} (svc : LedgerService sha C σ R A)

/-- The rows and memos once the event is over. -/
def after (s : σ × Ledger R) : LedgerEvent C σ → σ × Ledger R
  | .call c => match svc.run c s with
    | .ok r => r.1
    | .error _ => s
  | .elsewhere forgets write => (write s.1, s.2.deleteWhere fun memo => forgets memo.key)

/-- Any calls and other transactions, one after the other, from any state. -/
def system : System (σ × Ledger R) (LedgerEvent C σ) := .ofFun (fun _ => True) fun s e => .some (svc.after s e)

/-- The call is accepted and no replay. -/
def applies (key : MutationKey) (s : σ × Ledger R) : LedgerEvent C σ → Bool
  | .call c => decide (svc.key c = key) && (s.2.find? key).isNone && (svc.run c s).toOption.isSome
  | .elsewhere _ _ => false

/-- How often a run applies the mutation of a key. -/
def applications (key : MutationKey) (s : σ × Ledger R) (tr : List (LedgerEvent C σ × (σ × Ledger R))) : Nat :=
  countAlong (fun s e _ => svc.applies key s e) s tr

end LedgerService

def LedgerEvent.forgets {C σ : Type} (key : MutationKey) : LedgerEvent C σ → Bool
  | .call _ => false
  | .elsewhere forgets _ => forgets key

/-- How often a run deletes the memo of a key. -/
def forgettings {C σ τ : Type} (key : MutationKey) (s : τ) (tr : List (LedgerEvent C σ × τ)) : Nat :=
  countAlong (fun _ e _ => e.forgets key) s tr

namespace LedgerService

variable {sha : Sha256} {C σ R A : Type} (svc : LedgerService sha C σ R A)

/-- A first call: what it made of the rows, the memo it left, its answer. -/
structure Applied (c : C) (s t : σ × Ledger R) (response : R) (a : A) : Prop where
  unseen : s.2.find? (svc.key c) = .none
  fresh : svc.fresh c s.1 = .ok (t.1, response, a)
  memo : t.2.rows = ⟨svc.key c, sha.hexdigest (svc.requestBytes c), response⟩ :: s.2.rows

/-- A call whose key has the memo of a request. -/
structure Repeated (c : C) (requestBytes : Bytes) (response : R) (s : σ × Ledger R) : Prop where
  unchanged : svc.after s (.call c) = s
  served : svc.requestBytes c = requestBytes → ∀ r, svc.run c s = .ok r ↔ r.1 = s ∧ svc.answer c s.1 response = .ok r.2
  rejected : sha.hexdigest (svc.requestBytes c) ≠ sha.hexdigest requestBytes → ∃ e, svc.run c s = .error e

structure ExactlyOnce : Prop where
  /-- a mutation is applied once, and once more for each time its memo was deleted -/
  once : ∀ key s tr, svc.system.Run s tr → svc.applications key s tr ≤ 1 + forgettings key s tr
  /-- a call that does not apply its mutation writes nothing -/
  idle : ∀ c s, svc.applies (svc.key c) s (.call c) = false → svc.after s (.call c) = s
  /-- after it was applied, and while its memo is kept, a call with its key is a replay or a mismatch -/
  repeated : ∀ c s t response a, svc.Applied c s t response a → ∀ tr, svc.system.Run t tr →
    Along (fun _ e _ => e.forgets (svc.key c) = false) t tr →
      ∀ again, svc.key again = svc.key c → svc.Repeated again (svc.requestBytes c) response (last t tr)
  /-- a call that raises leaves neither a row nor a memo -/
  failed : ∀ c s e, svc.run c s = .error e → svc.after s (.call c) = s
  /-- a key that no call of a run applied has no memo -/
  unseen : ∀ key s tr, svc.system.Run s tr → s.2.find? key = .none →
    Along (fun s e _ => svc.applies key s e = false) s tr → (last s tr).2.find? key = .none
  /-- a call whose key has no memo is a first call -/
  first : ∀ c s, s.2.find? (svc.key c) = .none → ∀ t a, svc.run c s = .ok (t, a) ↔ ∃ response, svc.Applied c s t response a

section Calls

variable {svc} {c : C} {s t : σ × Ledger R}

theorem run_of_unseen (h : s.2.find? (svc.key c) = .none) {a : A} :
    svc.run c s = .ok (t, a) ↔ ∃ response, svc.Applied c s t response a := by
  rw [svc.run_ok, memoized_eq_ok]
  constructor
  · rintro (⟨response, hfind, -⟩ | ⟨hnone, response, hfresh, hinsert⟩)
    · rw [h] at hfind
      cases hfind
    · exact ⟨response, hnone, hfresh, (Table.insert?_eq_some.1 hinsert).2⟩
  · rintro ⟨response, happlied⟩
    exact .inr ⟨h, response, happlied.fresh, Table.insert?_eq_some.2 ⟨h, happlied.memo⟩⟩

theorem run_of_memo {hash : Text} {response : R} (h : s.2.find? (svc.key c) = .some ⟨svc.key c, hash, response⟩) {a : A} :
    svc.run c s = .ok (t, a) ↔
      t = s ∧ hash = sha.hexdigest (svc.requestBytes c) ∧ svc.answer c s.1 response = .ok a := by
  rw [svc.run_ok, memoized_eq_ok]
  constructor
  · rintro (⟨found, hfind, hserve, rfl⟩ | ⟨hnone, -⟩)
    · rw [h] at hfind
      cases hfind
      exact ⟨rfl, rfl, hserve⟩
    · rw [h] at hnone
      cases hnone
  · rintro ⟨rfl, rfl, hserve⟩
    exact .inl ⟨response, h, hserve, rfl⟩

theorem after_of_error {e : Abort} (h : svc.run c s = .error e) : svc.after s (.call c) = s := by
  unfold after
  simp only [h]

theorem call_cases (svc : LedgerService sha C σ R A) (c : C) (s : σ × Ledger R) :
    svc.after s (.call c) = s ∨ ∃ response a, svc.Applied c s (svc.after s (.call c)) response a := by
  cases hrun : svc.run c s with
  | error e => exact .inl (after_of_error hrun)
  | ok r =>
    obtain ⟨t, a⟩ := r
    have hafter : svc.after s (.call c) = t := by
      unfold after
      simp only [hrun]
    rw [hafter]
    cases hfind : s.2.find? (svc.key c) with
    | none =>
      obtain ⟨response, happlied⟩ := (run_of_unseen hfind).1 hrun
      exact .inr ⟨response, a, happlied⟩
    | some memo =>
      obtain ⟨-, hkey⟩ := Table.find?_eq_some.1 hfind
      obtain ⟨key, hash, response⟩ := memo
      cases hkey
      exact .inl ((run_of_memo hfind).1 hrun).1

theorem Applied.find?_eq {response : R} {a : A} (h : svc.Applied c s t response a) :
    t.2.find? (svc.key c) = .some ⟨svc.key c, sha.hexdigest (svc.requestBytes c), response⟩ := by
  refine Table.find?_eq_some.2 ⟨?_, rfl⟩
  rw [h.memo]
  exact List.mem_cons_self

theorem Applied.find?_of_ne {response : R} {a : A} (h : svc.Applied c s t response a) {key : MutationKey}
    (hkey : svc.key c ≠ key) : t.2.find? key = s.2.find? key := by
  have hinsert := Table.insert?_eq_some.2 ⟨h.unseen, h.memo⟩
  rw [Table.find?_insert? hinsert, if_neg hkey]

theorem repeated_of_memo {requestBytes : Bytes} {response : R}
    (h : s.2.find? (svc.key c) = .some ⟨svc.key c, sha.hexdigest requestBytes, response⟩) :
    svc.Repeated c requestBytes response s := by
  refine ⟨?_, ?_, ?_⟩
  · rcases call_cases svc c s with hsame | ⟨_, _, happlied⟩
    · exact hsame
    · rw [happlied.unseen] at h
      cases h
  · rintro rfl ⟨t, a⟩
    rw [run_of_memo h]
    simp only [true_and]
  · intro hne
    cases hrun : svc.run c s with
    | error e => exact ⟨e, rfl⟩
    | ok r => exact absurd ((run_of_memo h).1 hrun).2.1.symm hne

end Calls

section Runs

variable {svc} {s t : σ × Ledger R}

theorem step_iff {e : LedgerEvent C σ} : svc.system.step s e t ↔ svc.after s e = t := by
  simp only [system, System.ofFun_step, Option.some.injEq]

theorem find?_deleteWhere {ledger : Ledger R} {forgets : MutationKey → Bool} {key : MutationKey} (h : forgets key = false) :
    (ledger.deleteWhere fun memo => forgets memo.key).find? key = ledger.find? key := by
  cases hfind : ledger.find? key with
  | none =>
    refine Table.find?_eq_none.2 fun memo hmem => Table.find?_eq_none.1 hfind memo ?_
    exact List.mem_of_mem_filter hmem
  | some memo =>
    obtain ⟨hmem, hkey⟩ := Table.find?_eq_some.1 hfind
    refine Table.find?_eq_some.2 ⟨List.mem_filter.2 ⟨hmem, ?_⟩, hkey⟩
    simp only [hkey, h, Bool.not_false]

/-- **A step keeps the memo it does not delete.** -/
theorem find?_after {e : LedgerEvent C σ} {key : MutationKey} {memo : ResourceMutation R}
    (hkept : e.forgets key = false) (h : s.2.find? key = .some memo) : (svc.after s e).2.find? key = .some memo := by
  cases e with
  | elsewhere forgets write => exact (find?_deleteWhere hkept).trans h
  | call c =>
    rcases call_cases svc c s with hsame | ⟨response, a, happlied⟩
    · rw [hsame, h]
    · refine (happlied.find?_of_ne ?_).trans h
      rintro rfl
      rw [happlied.unseen] at h
      cases h

theorem applies_of_applied {c : C} {response : R} {a : A} (h : svc.Applied c s t response a) :
    svc.applies (svc.key c) s (.call c) = true := by
  have hrun := (run_of_unseen h.unseen).2 ⟨response, h⟩
  simp only [applies, h.unseen, hrun, decide_true, Option.isNone_none, Except.toOption, Option.isSome_some, Bool.and_self]

theorem unseen_after {e : LedgerEvent C σ} {key : MutationKey} (happlies : svc.applies key s e = false)
    (h : s.2.find? key = .none) : (svc.after s e).2.find? key = .none := by
  cases e with
  | elsewhere forgets write =>
    refine Table.find?_eq_none.2 fun memo hmem => Table.find?_eq_none.1 h memo ?_
    exact List.mem_of_mem_filter hmem
  | call c =>
    rcases call_cases svc c s with hsame | ⟨response, a, happlied⟩
    · rw [hsame, h]
    · refine (happlied.find?_of_ne ?_).trans h
      rintro rfl
      rw [applies_of_applied happlied] at happlies
      cases happlies

theorem memo_of_applies {e : LedgerEvent C σ} {key : MutationKey} (h : svc.applies key s e = true) :
    s.2.find? key = .none ∧ ∃ memo, (svc.after s e).2.find? key = .some memo := by
  cases e with
  | elsewhere forgets write => cases h
  | call c =>
    simp only [applies, Bool.and_eq_true, decide_eq_true_eq, Option.isNone_iff_eq_none] at h
    obtain ⟨⟨rfl, hnone⟩, hsome⟩ := h
    cases hrun : svc.run c s with
    | error e =>
      rw [hrun] at hsome
      cases hsome
    | ok r =>
      obtain ⟨t, a⟩ := r
      obtain ⟨response, happlied⟩ := (run_of_unseen hnone).1 hrun
      have hafter : svc.after s (.call c) = t := by
        unfold after
        simp only [hrun]
      rw [hafter]
      exact ⟨hnone, _, happlied.find?_eq⟩

/-- **Applied once**, and once more for each time the memo was deleted. -/
theorem applications_le (svc : LedgerService sha C σ R A) (key : MutationKey) {tr : List (LedgerEvent C σ × (σ × Ledger R))}
    (hr : svc.system.Run s tr) : svc.applications key s tr ≤ 1 + forgettings key s tr := by
  have hle := System.Run.countAlong_le (P := fun s e _ => svc.applies key s e) (F := fun _ e _ => e.forgets key)
    (m := fun s => (s.2.find? key).isSome) ?_ ?_ hr
  · have hone : (if (s.2.find? key).isSome = true then 0 else 1) ≤ 1 := by split <;> omega
    unfold applications forgettings
    omega
  · intro s e t hstep happlies
    obtain ⟨hnone, memo, hmemo⟩ := memo_of_applies happlies
    rw [← step_iff.1 hstep, hnone, hmemo]
    exact ⟨rfl, rfl⟩
  · intro s e t hstep hkept hmarked
    obtain ⟨memo, hmemo⟩ := Option.isSome_iff_exists.1 hmarked
    rw [← step_iff.1 hstep, find?_after hkept hmemo]
    rfl

/-- **A run keeps the memos it does not delete.** -/
theorem memo_kept {key : MutationKey} {memo : ResourceMutation R} :
    ∀ {s : σ × Ledger R} {tr}, svc.system.Run s tr → Along (fun _ e _ => e.forgets key = false) s tr →
      s.2.find? key = .some memo → (last s tr).2.find? key = .some memo
  | _, [], _, _, h => h
  | s, (e, t) :: tr, hr, hkept, h => by
    have hnext : t.2.find? key = .some memo := by
      rw [← step_iff.1 hr.1]
      exact find?_after hkept.1 h
    have hlast : (last t tr).2.find? key = .some memo := memo_kept hr.2 hkept.2 hnext
    exact hlast

theorem unseen_last {key : MutationKey} :
    ∀ {s : σ × Ledger R} {tr}, svc.system.Run s tr → Along (fun s e _ => svc.applies key s e = false) s tr →
      s.2.find? key = .none → (last s tr).2.find? key = .none
  | _, [], _, _, h => h
  | s, (e, t) :: tr, hr, happlies, h => by
    have hnext : t.2.find? key = .none := by
      rw [← step_iff.1 hr.1]
      exact unseen_after happlies.1 h
    have hlast : (last t tr).2.find? key = .none := unseen_last hr.2 happlies.2 hnext
    exact hlast

/-- **Every service behind the ledger is exactly-once.** -/
theorem exactlyOnce (svc : LedgerService sha C σ R A) : svc.ExactlyOnce where
  once key s tr hr := applications_le svc key hr
  idle c s h := by
    rcases call_cases svc c s with hsame | ⟨response, a, happlied⟩
    · exact hsame
    · rw [applies_of_applied happlied] at h
      cases h
  repeated c s t response a happlied tr hr hkept again hkey := by
    have hmemo := memo_kept hr hkept happlied.find?_eq
    rw [← hkey] at hmemo
    exact repeated_of_memo hmemo
  failed c s e h := after_of_error h
  unseen key s tr hr h happlies := unseen_last hr happlies h
  first c s h t a := run_of_unseen h

end Runs

end LedgerService

end Nexus.Mutations
