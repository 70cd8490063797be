/-
The coroutines of a single-threaded scope, where they are suspended.

A coroutine runs from one suspension point to the next with nothing in
between, so what a scope holds between two turns is the point each of its
unfinished coroutines waits at. `cancel` only marks a coroutine: it is resumed
once more, in a later turn, and what it does then is the caller's to say.
`runs` reads the coroutines that were not cancelled.
-/
import Mathlib.Logic.Function.Basic

namespace Coroutine

variable {α : Type}

/-- A coroutine waiting at a point. -/
structure Suspended (α : Type) where
  point : α
  cancelled : Bool

/-- Jobs are numbered in the order they are launched. -/
structure Scope (α : Type) where
  find : Nat → Option (Suspended α)
  next : Nat
  fresh : ∀ job, next ≤ job → find job = .none

namespace Scope

def empty : Scope α := ⟨fun _ => .none, 0, fun _ _ => rfl⟩

/-- `launch`, up to the coroutine's first suspension point. -/
def launch (s : Scope α) (point : α) : Scope α where
  find job := if job = s.next then .some ⟨point, false⟩ else s.find job
  next := s.next + 1
  fresh job h := by
    rw [if_neg (by omega)]
    exact s.fresh job (by omega)

/-- Rewrites the coroutine of one job. -/
def modify (s : Scope α) (job : Nat) (f : Suspended α → Option (Suspended α)) : Scope α where
  find k := if k = job then (s.find k).bind f else s.find k
  next := s.next
  fresh k h := by
    rw [s.fresh k h]
    simp

/-- The coroutine ran to its end. -/
def finish (s : Scope α) (job : Nat) : Scope α := s.modify job fun _ => .none

/-- The coroutine ran to its next suspension point. -/
def moveTo (s : Scope α) (job : Nat) (point : α) : Scope α := s.modify job fun c => .some { c with point }

/-- `job?.cancel()` -/
def cancel (s : Scope α) : Option Nat → Scope α
  | .none => s
  | .some job => s.modify job fun c => .some { c with cancelled := true }

/-- Where an uncancelled coroutine waits. -/
def runs (s : Scope α) (job : Nat) : Option α :=
  (s.find job).bind fun c => if c.cancelled then .none else .some c.point

/-- Where a cancelled coroutine waits to be resumed. -/
def stopped (s : Scope α) (job : Nat) : Option α :=
  (s.find job).bind fun c => if c.cancelled then .some c.point else .none

/-- `job?.isActive == true` -/
def isActive (s : Scope α) (job : Option Nat) : Bool := (job.bind s.runs).isSome

variable (s : Scope α)

@[simp] theorem runs_empty (job : Nat) : (empty : Scope α).runs job = .none := rfl

@[simp] theorem stopped_empty (job : Nat) : (empty : Scope α).stopped job = .none := rfl

@[simp] theorem next_launch (p : α) : (s.launch p).next = s.next + 1 := rfl

@[simp] theorem next_finish (job : Nat) : (s.finish job).next = s.next := rfl

@[simp] theorem next_moveTo (job : Nat) (p : α) : (s.moveTo job p).next = s.next := rfl

@[simp] theorem next_cancel (job : Option Nat) : (s.cancel job).next = s.next := by cases job <;> rfl

theorem runs_launch (p : α) (job : Nat) :
    (s.launch p).runs job = if job = s.next then .some p else s.runs job := by
  unfold runs launch
  dsimp only
  split <;> rfl

theorem stopped_launch (p : α) (job : Nat) : (s.launch p).stopped job = s.stopped job := by
  unfold stopped launch
  dsimp only
  split
  next h => rw [s.fresh job (by omega)]; rfl
  next => rfl

theorem runs_finish (job k : Nat) : (s.finish job).runs k = if k = job then .none else s.runs k := by
  unfold runs finish modify
  dsimp only
  split
  · cases s.find k <;> rfl
  · rfl

theorem stopped_finish (job k : Nat) : (s.finish job).stopped k = if k = job then .none else s.stopped k := by
  unfold stopped finish modify
  dsimp only
  split
  · cases s.find k <;> rfl
  · rfl

theorem runs_cancel (job : Option Nat) (k : Nat) :
    (s.cancel job).runs k = if job = .some k then .none else s.runs k := by
  cases job with
  | none => simp [cancel]
  | some j =>
    unfold runs cancel modify
    dsimp only
    by_cases hk : k = j
    · subst hk
      rw [if_pos rfl, if_pos rfl]
      cases s.find k <;> rfl
    · rw [if_neg hk, if_neg (by simpa using fun h => hk h.symm)]

theorem runs_of_cancel {job : Option Nat} {k : Nat} {p : α} (h : (s.cancel job).runs k = .some p) :
    s.runs k = .some p := by
  rw [runs_cancel] at h
  split at h
  · cases h
  · exact h

/-- What waits to be resumed after a cancellation was cancelled before, or ran. -/
theorem stopped_of_cancel {job : Option Nat} {k : Nat} {p : α} (h : (s.cancel job).stopped k = .some p) :
    s.stopped k = .some p ∨ s.runs k = .some p := by
  cases job with
  | none => exact .inl h
  | some j =>
    unfold stopped cancel modify at h
    dsimp only at h
    unfold stopped runs
    split at h
    · revert h
      rcases s.find k with _ | ⟨q, _ | _⟩ <;> simp
    · exact .inl h

theorem find_eq_some {job : Nat} {c : Suspended α} (h : s.find job = .some c) :
    s.runs job = .some c.point ∨ s.stopped job = .some c.point := by
  unfold runs stopped
  rw [h]
  cases hc : c.cancelled <;> simp [hc]

theorem isActive_eq_true {job : Option Nat} : s.isActive job = true ↔ ∃ j p, job = .some j ∧ s.runs j = .some p := by
  unfold isActive
  cases job with
  | none => simp
  | some j => simp [Option.isSome_iff_exists]

@[simp] theorem isActive_none : s.isActive .none = false := rfl

end Scope

end Coroutine
