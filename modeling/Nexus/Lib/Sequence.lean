/-
Lists of things told apart by a key, edited by key: place one at the start or
after another, move one, take one out.

`insertAfter` is the insertion itself; `insertAfter_eq_insertIdx` is the way a
program does it, by the index of the one before.
-/
import Mathlib.Data.List.Nodup

namespace Sequence

universe u v w

variable {α : Type u} {κ : Type v} [DecidableEq κ]

inductive Position (κ : Type v)
  | start
  | after (k : κ)
  deriving DecidableEq, Repr

/-- `x`, right after the one with key `k`. -/
def insertAfter (key : α → κ) (k : κ) (x : α) : List α → Option (List α)
  | [] => .none
  | a :: l => if key a = k then .some (a :: x :: l) else (insertAfter key k x l).map (a :: ·)

/-- `x` put at a position. -/
def place (key : α → κ) (l : List α) (x : α) : Position κ → Option (List α)
  | .start => .some (x :: l)
  | .after k => insertAfter key k x l

/-- All but the one with key `k`. -/
def without (key : α → κ) (l : List α) (k : κ) : List α := l.filter fun a => key a ≠ k

/-- The one with key `k` taken out and put at a position among the rest. -/
def move (key : α → κ) (l : List α) (k : κ) (position : Position κ) : Option (List α) :=
  (l.find? fun a => key a = k).bind fun a => place key (without key l k) a position

variable {key : α → κ} {l l' : List α} {x : α} {k : κ} {position : Position κ}

theorem insertAfter_perm (h : insertAfter key k x l = .some l') : l'.Perm (x :: l) := by
  induction l generalizing l' with
  | nil => cases h
  | cons a l ih =>
    unfold insertAfter at h
    split at h
    · obtain rfl := Option.some.inj h
      exact List.Perm.swap x a l
    · obtain ⟨tail, htail, rfl⟩ := Option.map_eq_some_iff.1 h
      exact ((ih htail).cons a).trans (List.Perm.swap x a l)

theorem place_perm (h : place key l x position = .some l') : l'.Perm (x :: l) := by
  cases position with
  | start =>
    obtain rfl := Option.some.inj h
    exact List.Perm.refl _
  | after k => exact insertAfter_perm h

theorem insertAfter_eq_insertIdx :
    insertAfter key k x l = (l.findIdx? fun a => key a = k).map fun i => l.insertIdx (i + 1) x := by
  induction l with
  | nil => rfl
  | cons a l ih =>
    unfold insertAfter
    rw [List.findIdx?_cons]
    by_cases hk : key a = k
    · simp [hk]
    · simp only [hk, if_false, decide_false, Bool.false_eq_true, ih, Option.map_map]
      rfl

section Map

variable {β : Type w} {key' : β → κ} {f : α → β}

theorem insertAfter_map (hf : ∀ a, key' (f a) = key a) :
    insertAfter key' k (f x) (l.map f) = (insertAfter key k x l).map (List.map f) := by
  induction l with
  | nil => rfl
  | cons a l ih =>
    rw [List.map_cons, insertAfter, insertAfter, hf]
    by_cases hk : key a = k
    · simp [hk]
    · rw [if_neg hk, if_neg hk, ih, Option.map_map, Option.map_map]
      rfl

theorem place_map (hf : ∀ a, key' (f a) = key a) :
    place key' (l.map f) (f x) position = (place key l x position).map (List.map f) := by
  cases position with
  | start => rfl
  | after k => exact insertAfter_map hf

theorem without_map (hf : ∀ a, key' (f a) = key a) : without key' (l.map f) k = (without key l k).map f := by
  rw [without, without, List.filter_map]
  congr 1
  refine List.filter_congr fun a _ => ?_
  rw [Function.comp_apply, hf]

theorem move_map (hf : ∀ a, key' (f a) = key a) :
    move key' (l.map f) k position = (move key l k position).map (List.map f) := by
  rw [move, move, List.find?_map, without_map hf]
  have hsame : ((fun b => decide (key' b = k)) ∘ f) = fun a => decide (key a = k) := by
    funext a
    rw [Function.comp_apply, hf]
  rw [hsame]
  cases l.find? fun a => key a = k with
  | none => rfl
  | some a => exact place_map hf

end Map

end Sequence
