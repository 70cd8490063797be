/-
SQL expressions over nullable values.

A nullable value is an `Option`. An operator that is strict in its operands is
`Option.map₂`, so a comparison with a null is unknown; a truth value is an
`Option Bool`. `WHERE` and `WHEN` take a row or a branch on true only, which is
`isTrue`, and its lemmas say when each form is true. `GREATEST` and `LEAST` are
not strict: they skip nulls. A statement computes its rows with `List.mapM` in
`Option`: one row that fails fails it (`forall₂_mapM`).
-/
import Mathlib.Data.List.Forall2
import Mathlib.Data.Option.NAry
import Mathlib.Order.Lattice
import Mathlib.Order.Defs.LinearOrder

namespace Sql

variable {α : Type*}

/-- True, false or unknown. -/
abbrev Truth := Option Bool

/-- What a `WHERE` or a `WHEN` asks. -/
def isTrue (a : Truth) : Bool := a == .some true

/-- `a AND b` -/
def conj (a b : Truth) : Truth :=
  match a, b with
  | .some false, _ => .some false
  | _, .some false => .some false
  | .some true, .some true => .some true
  | _, _ => .none

/-- `a OR b` -/
def disj (a b : Truth) : Truth :=
  match a, b with
  | .some true, _ => .some true
  | _, .some true => .some true
  | .some false, .some false => .some false
  | _, _ => .none

/-- `a AND b AND …` -/
def conjAll (l : List Truth) : Truth := l.foldr conj (.some true)

/-- `a OR b OR …` -/
def disjAll (l : List Truth) : Truth := l.foldr disj (.some false)

@[simp] theorem isTrue_conj {a b : Truth} : isTrue (conj a b) = (isTrue a && isTrue b) := by
  rcases a with _ | _ | _ <;> rcases b with _ | _ | _ <;> rfl

@[simp] theorem isTrue_disj {a b : Truth} : isTrue (disj a b) = (isTrue a || isTrue b) := by
  rcases a with _ | _ | _ <;> rcases b with _ | _ | _ <;> rfl

theorem isTrue_conjAll {l : List Truth} : isTrue (conjAll l) = l.all isTrue := by
  induction l with
  | nil => rfl
  | cons a l ih =>
    show isTrue (conj a (conjAll l)) = _
    rw [isTrue_conj, ih, List.all_cons]

theorem isTrue_disjAll {l : List Truth} : isTrue (disjAll l) = l.any isTrue := by
  induction l with
  | nil => rfl
  | cons a l ih =>
    show isTrue (disj a (disjAll l)) = _
    rw [isTrue_disj, ih, List.any_cons]

/-- `a IS NOT DISTINCT FROM b`, which is never unknown. -/
def isNotDistinctFrom [DecidableEq α] (a b : Option α) : Truth := .some (decide (a = b))

@[simp] theorem isTrue_isNotDistinctFrom [DecidableEq α] {a b : Option α} :
    isTrue (isNotDistinctFrom a b) = decide (a = b) := by
  unfold isNotDistinctFrom isTrue
  cases decide (a = b) <;> rfl

section Order

variable [LinearOrder α]

/-- `a = b` -/
def eq (a b : Option α) : Truth := Option.map₂ (fun a b => decide (a = b)) a b

/-- `a < b` -/
def lt (a b : Option α) : Truth := Option.map₂ (fun a b => decide (a < b)) a b

/-- `a >= b` -/
def ge (a b : Option α) : Truth := Option.map₂ (fun a b => decide (b ≤ a)) a b

@[simp] theorem eq_some {a b : α} : eq (.some a) (.some b) = .some (decide (a = b)) := rfl

@[simp] theorem lt_some {a b : α} : lt (.some a) (.some b) = .some (decide (a < b)) := rfl

@[simp] theorem lt_none_left {b : Option α} : lt .none b = .none := rfl

@[simp] theorem lt_none_right {a : Option α} : lt a .none = .none := by cases a <;> rfl

@[simp] theorem isTrue_some {b : Bool} : isTrue (.some b) = b := by cases b <;> rfl

@[simp] theorem isTrue_none : isTrue .none = false := rfl

/-- `GREATEST(a, b)` -/
def greatest (a b : Option α) : Option α :=
  match a, b with
  | .some a, .some b => .some (max a b)
  | .some a, .none => .some a
  | .none, b => b

/-- `LEAST(a, b)` -/
def least (a b : Option α) : Option α :=
  match a, b with
  | .some a, .some b => .some (min a b)
  | .some a, .none => .some a
  | .none, b => b

theorem greatest_none (a : Option α) : greatest a .none = a := by cases a <;> rfl

theorem le_greatest (a : Option α) (b : α) : ∃ m, greatest a (.some b) = .some m ∧ b ≤ m := by
  cases a with
  | none => exact ⟨b, rfl, le_rfl⟩
  | some a => exact ⟨max a b, rfl, le_max_right a b⟩

theorem greatest_of_le {a b : α} (h : b ≤ a) : greatest (.some a) (.some b) = .some a := by
  show Option.some (max a b) = _
  rw [max_eq_left h]

end Order

/-- A statement gives rows with a property, one for each of its inputs, exactly
when each input gives one. -/
theorem forall₂_mapM {β : Type*} {f : α → Option β} {P : α → β → Prop} {l : List α} :
    (∃ rows, l.mapM f = .some rows ∧ List.Forall₂ P l rows) ↔ ∀ a ∈ l, ∃ b, f a = .some b ∧ P a b := by
  induction l with
  | nil => simp
  | cons a l ih =>
    rw [List.forall_mem_cons, ← ih]
    constructor
    · rintro ⟨rows, hm, hf⟩
      cases hf with
      | @cons a b l bs hP hPs =>
        cases ha : f a with
        | none => simp [List.mapM_cons, ha] at hm
        | some b' =>
          cases hl : l.mapM f with
          | none => simp [List.mapM_cons, ha, hl] at hm
          | some bs' =>
            simp only [List.mapM_cons, ha, hl, bind, Option.bind, pure, Option.some.injEq, List.cons.injEq] at hm
            obtain ⟨rfl, rfl⟩ := hm
            exact ⟨⟨b', rfl, hP⟩, bs', rfl, hPs⟩
    · rintro ⟨⟨b, ha, hP⟩, bs, hl, hPs⟩
      refine ⟨b :: bs, ?_, .cons hP hPs⟩
      simp only [List.mapM_cons, ha, hl, bind, Option.bind, pure]

end Sql
