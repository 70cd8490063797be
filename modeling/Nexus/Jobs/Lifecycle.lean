/-
What a background job goes through, apart from what it carries: waiting,
running under a lease, given back, failed, finished, restarted.

`Lifecycle` keeps the columns that say where a job stands, `Lifecycle.Step`
what may happen to it, `Lifecycle.Ok` what those columns always say together,
and a `Ledger` counts the claims of one budget. The queue's statements are
shown to be such steps in `Jobs.Refinement`.
-/
import Nexus.Base

namespace Nexus.Jobs

/-- `background_jobs.status` -/
inductive JobStatus
  | pending
  | running
  | succeeded
  | failed
  | dead
  deriving DecidableEq, Repr

structure Lifecycle where
  status : JobStatus
  attempts : Nat
  maxAttempts : Nat
  leaseExpiresAt : Option Instant
  claimedBy : Option String
  finishedAt : Option Instant
  deriving DecidableEq, Repr

/-- What happens to a job, as far as its claim and its budget are concerned. -/
inductive Move
  | keep
  | claim (worker : String)
  | giveBack
  | settle
  | restart
  deriving DecidableEq, Repr

namespace Lifecycle

/-- A new job, or one with a new budget. -/
def fresh (maxAttempts : Nat) : Lifecycle := ⟨.pending, 0, maxAttempts, .none, .none, .none⟩

inductive Step : Lifecycle → Move → Lifecycle → Prop
  | edit {c} : Step c .keep c
  | renew {c lease} : c.status = .running → Step c .keep { c with leaseExpiresAt := .some lease }
  | claim {c worker lease} :
      c.status = .pending ∨ c.status = .failed ∨ (c.status = .running ∧ c.attempts < c.maxAttempts) →
      Step c (.claim worker) { c with
        status := .running
        attempts := c.attempts + 1
        claimedBy := .some worker
        leaseExpiresAt := .some lease }
  | giveBack {c} : c.status = .running →
      Step c .giveBack { c with
        status := .pending
        attempts := c.attempts - 1
        claimedBy := .none
        leaseExpiresAt := .none }
  | fail {c} : c.status = .running → c.attempts < c.maxAttempts →
      Step c .settle { c with status := .failed, claimedBy := .none, leaseExpiresAt := .none, finishedAt := .none }
  | finish {c status at_} : (status = .succeeded ∨ status = .dead) →
      Step c .settle { c with status, claimedBy := .none, leaseExpiresAt := .none, finishedAt := .some at_ }
  | restart {c maxAttempts} : maxAttempts = c.maxAttempts ∨ 1 ≤ maxAttempts → Step c .restart (fresh maxAttempts)

/-- A running job is leased to a worker and has used an attempt, a waiting one
is unclaimed with budget left, and exactly the finished ones carry the time
they finished. -/
structure Ok (c : Lifecycle) : Prop where
  running_iff : c.status = .running ↔ c.claimedBy.isSome = true ∧ c.leaseExpiresAt.isSome = true
  attempts_running : c.status = .running → 1 ≤ c.attempts
  attempts_le : c.attempts ≤ c.maxAttempts
  waiting : c.status = .pending ∨ c.status = .failed →
    c.claimedBy = .none ∧ c.attempts < c.maxAttempts ∧ c.finishedAt = .none
  finished_iff : c.finishedAt.isSome = true ↔ c.status = .succeeded ∨ c.status = .dead
  budget : 1 ≤ c.maxAttempts

theorem Ok.fresh {maxAttempts : Nat} (h : 1 ≤ maxAttempts) : (fresh maxAttempts).Ok where
  running_iff := by simp [Lifecycle.fresh]
  attempts_running := by simp [Lifecycle.fresh]
  attempts_le := Nat.zero_le _
  waiting := fun _ => ⟨rfl, h, rfl⟩
  finished_iff := by simp [Lifecycle.fresh]
  budget := h

theorem Ok.finishedAt_of_running {c : Lifecycle} (h : c.Ok) (hr : c.status = .running) : c.finishedAt = .none := by
  cases hf : c.finishedAt with
  | none => rfl
  | some at_ =>
    have hfin := h.finished_iff.1 (by rw [hf]; rfl)
    rw [hr] at hfin
    simp at hfin

theorem Ok.claimable {c : Lifecycle} (h : c.Ok)
    (hc : c.status = .pending ∨ c.status = .failed ∨ (c.status = .running ∧ c.attempts < c.maxAttempts)) :
    c.attempts < c.maxAttempts ∧ c.finishedAt = .none := by
  rcases hc with hc | hc | ⟨hc, hlt⟩
  · exact (h.waiting (.inl hc)).2
  · exact (h.waiting (.inr hc)).2
  · exact ⟨hlt, h.finishedAt_of_running hc⟩

theorem Ok.step {c c' : Lifecycle} {m} (h : c.Ok) (hs : Step c m c') : c'.Ok := by
  cases hs with
  | edit => exact h
  | renew hr =>
    have hrun := h.running_iff.1 hr
    exact ⟨by simp [hr, hrun.1], h.attempts_running, h.attempts_le, h.waiting, h.finished_iff, h.budget⟩
  | claim hc =>
    obtain ⟨hlt, hf⟩ := h.claimable hc
    exact ⟨by simp, fun _ => Nat.succ_pos _, hlt, by simp, by simp [hf], h.budget⟩
  | giveBack hr =>
    have hpos := h.attempts_running hr
    have hle := h.attempts_le
    have hf := h.finishedAt_of_running hr
    have hlt : c.attempts - 1 < c.maxAttempts := by omega
    exact ⟨by simp, by simp, Nat.le_of_lt hlt, fun _ => ⟨rfl, hlt, hf⟩, by simp [hf], h.budget⟩
  | fail hr hlt => exact ⟨by simp, by simp, h.attempts_le, fun _ => ⟨rfl, hlt, rfl⟩, by simp, h.budget⟩
  | finish hst =>
    rcases hst with rfl | rfl <;> exact ⟨by simp, by simp, h.attempts_le, by simp, by simp, h.budget⟩
  | restart hm =>
    rcases hm with rfl | hm
    · exact .fresh h.budget
    · exact .fresh hm

end Lifecycle

/-! ## The budget -/

/-- The claims of one budget, and those a reschedule gave back. -/
structure Ledger where
  claims : Nat
  givenBack : Nat
  deriving DecidableEq, Repr

def Ledger.zero : Ledger := ⟨0, 0⟩

def Ledger.after (l : Ledger) : Move → Ledger
  | .keep | .settle => l
  | .claim _ => { l with claims := l.claims + 1 }
  | .giveBack => { l with givenBack := l.givenBack + 1 }
  | .restart => .zero

/-- `attempts` counts the claims that were not given back. -/
def Ledger.Balances (l : Ledger) (c : Lifecycle) : Prop := l.claims = c.attempts + l.givenBack

theorem Ledger.Balances.step {l : Ledger} {c c' : Lifecycle} {m} (h : l.Balances c) (hc : c.Ok)
    (hs : Lifecycle.Step c m c') : (l.after m).Balances c' := by
  unfold Balances at h ⊢
  cases hs with
  | edit | renew | fail | finish => exact h
  | claim =>
    simp only [after]
    omega
  | giveBack hr =>
    have hpos := hc.attempts_running hr
    simp only [after]
    omega
  | restart => rfl

theorem Ledger.Balances.claims_le {l : Ledger} {c : Lifecycle} (h : l.Balances c) (hc : c.Ok) :
    l.claims ≤ c.maxAttempts + l.givenBack := by
  have hle := hc.attempts_le
  unfold Balances at h
  omega

end Nexus.Jobs
