/-
Where a computation that may raise leaves its state. `EStateM` keeps what a
raising computation has written, so the state a run ends in (`final`) can be
followed without asking whether the run returned or raised.

The rules read a `try … except … finally` from the outside: the cleanup runs
where the body stopped, on either exit (`final_tryFinally`), a handler that
writes a note and raises again ends in the noted state (`final_reraise`), and
a cleanup behind a flag runs exactly where the flag is not set
(`final_unless`).
-/
import Mathlib.Logic.Basic

namespace Raising

variable {ε σ α β : Type}

/-- The state a run ends in. -/
def final : EStateM.Result ε σ α → σ
  | .ok _ s => s
  | .error _ s => s

@[simp] theorem final_ok (a : α) (s : σ) : final (.ok a s : EStateM.Result ε σ α) = s := rfl

@[simp] theorem final_error (e : ε) (s : σ) : final (.error e s : EStateM.Result ε σ α) = s := rfl

theorem run_throw (e : ε) (s : σ) : EStateM.run (throw e : EStateM ε σ α) s = .error e s := rfl

theorem run_discard_of_ok {x : EStateM ε σ α} {s t : σ} {a : α} (h : x.run s = .ok a t) :
    EStateM.run (discard x) s = .ok () t := by
  show EStateM.map _ x s = _
  unfold EStateM.map
  rw [show x s = .ok a t from h]

theorem final_bind (x : EStateM ε σ α) (f : α → EStateM ε σ β) (s : σ) :
    final ((x >>= f).run s) =
      match x.run s with
      | .ok a t => final ((f a).run t)
      | .error _ t => t := by
  rw [EStateM.run_bind]
  cases x.run s with
  | ok a t => rfl
  | error e t => rfl

theorem final_bind_of_ok {x : EStateM ε σ α} {s t : σ} {a : α} (h : x.run s = .ok a t) (f : α → EStateM ε σ β) :
    final ((x >>= f).run s) = final ((f a).run t) := by
  rw [final_bind, h]

theorem final_bind_of_error {x : EStateM ε σ α} {s t : σ} {e : ε} (h : x.run s = .error e t)
    (f : α → EStateM ε σ β) : final ((x >>= f).run s) = t := by
  rw [final_bind, h]

/-- **The cleanup runs where the body stopped**, whether it returned or raised. -/
theorem final_tryFinally (x : EStateM ε σ α) (cleanup : EStateM ε σ β) (s : σ) :
    final (EStateM.run (tryFinally x cleanup) s) = final (cleanup.run (final (x.run s))) := by
  have hrun : EStateM.run (tryFinally x cleanup) s =
      match x.run s with
      | .ok a t =>
        match cleanup.run t with
        | .ok _ u => .ok a u
        | .error e u => .error e u
      | .error e t =>
        match cleanup.run t with
        | .ok _ u => .error e u
        | .error e u => .error e u := by
    simp only [tryFinally, tryFinally', Functor.map, EStateM.run, EStateM.map]
    cases x s with
    | ok a t => cases h : cleanup t <;> simp [h]
    | error e t => cases h : cleanup t <;> simp [h]
  rw [hrun]
  cases x.run s with
  | ok a t => cases h : cleanup.run t <;> simp [h]
  | error e t => cases h : cleanup.run t <;> simp [h]

theorem final_reraise (x : EStateM ε σ α) (note : ε → σ → σ) (s : σ) :
    final (EStateM.run (tryCatch x fun e => do modify (note e); throw e) s) =
      match x.run s with
      | .ok _ t => t
      | .error e t => note e t := by
  have hrun : EStateM.run (tryCatch x fun e => do modify (note e); throw e) s =
      match x.run s with
      | .ok a t => .ok a t
      | .error e t => .error e (note e t) := by
    show EStateM.tryCatch x _ s = _
    unfold EStateM.tryCatch EStateM.run
    cases x s with
    | ok a t => rfl
    | error e t => rfl
  rw [hrun]
  cases x.run s with
  | ok a t => rfl
  | error e t => rfl

theorem final_unless (done : σ → Bool) (cleanup : EStateM ε σ PUnit) (s : σ) :
    final (EStateM.run (do if !done (← get) then cleanup) s) = if done s then s else final (cleanup.run s) := by
  rw [final_bind_of_ok (EStateM.run_get s)]
  cases h : done s with
  | true => rfl
  | false => rfl

end Raising
