/-
Traversals of a paginated source: the pages applied one after the other, each
fetched with the cursor the one before returned, up to an ending.

A step applies a page, which may end the traversal, or ends it without one.
`InOrder` is what a history of steps has when every page was applied once and in
its place; `InOrder.page` and `InOrder.stop` are the steps that keep it, and a
history in order has at most one ending (`InOrder.length_endings_le`).
-/
import Mathlib.Data.List.Basic

namespace Traversal

variable {C T P : Type}

/-- A page as it was applied, and the cursor it returned. -/
structure Applied (C P : Type) where
  number : Nat
  cursor : Option C
  page : P
  next : Option C
  deriving DecidableEq, Repr

inductive Step (C T P : Type)
  | page (applied : Applied C P) (ending : Option T)
  | stop (ending : T)
  deriving DecidableEq, Repr

def Step.applied : Step C T P → Option (Applied C P)
  | .page a _ => .some a
  | .stop _ => .none

def Step.ending : Step C T P → Option T
  | .page _ ending => ending
  | .stop ending => .some ending

/-- The pages of a history, oldest first. -/
def pages (history : List (Step C T P)) : List (Applied C P) := history.filterMap Step.applied

/-- The endings of a history. -/
def endings (history : List (Step C T P)) : List T := history.filterMap Step.ending

/-- The cursor the next page is to be fetched with. -/
def cursorAfter (applied : List (Applied C P)) : Option C := applied.getLast?.bind (·.next)

structure InOrder (history : List (Step C T P)) : Prop where
  numbered : ∀ (i : Nat) a, (pages history)[i]? = .some a → a.number = i
  first : ∀ a, (pages history)[0]? = .some a → a.cursor = .none
  chained : ∀ (i : Nat) a b, (pages history)[i]? = .some a → (pages history)[i + 1]? = .some b → b.cursor = a.next
  ended : ∀ before step after, history = before ++ step :: after → step.ending.isSome = true → after = []

@[simp] theorem pages_nil : pages ([] : List (Step C T P)) = [] := rfl

@[simp] theorem endings_nil : endings ([] : List (Step C T P)) = [] := rfl

@[simp] theorem pages_page (history : List (Step C T P)) (a : Applied C P) (ending : Option T) :
    pages (history ++ [.page a ending]) = pages history ++ [a] := by
  simp [pages, Step.applied]

@[simp] theorem pages_stop (history : List (Step C T P)) (ending : T) : pages (history ++ [.stop ending]) = pages history := by
  simp [pages, Step.applied]

@[simp] theorem endings_page (history : List (Step C T P)) (a : Applied C P) (ending : Option T) :
    endings (history ++ [.page a ending]) = endings history ++ ending.toList := by
  cases ending <;> simp [endings, Step.ending]

@[simp] theorem endings_stop (history : List (Step C T P)) (ending : T) :
    endings (history ++ [.stop ending]) = endings history ++ [ending] := by
  simp [endings, Step.ending]

@[simp] theorem cursorAfter_append (l : List (Applied C P)) (a : Applied C P) : cursorAfter (l ++ [a]) = a.next := by
  simp [cursorAfter]

theorem InOrder.nil : InOrder ([] : List (Step C T P)) where
  numbered := by simp
  first := by simp
  chained := by simp
  ended := by simp

theorem ending_eq_none {history : List (Step C T P)} (h : endings history = []) : ∀ step ∈ history, step.ending = .none := by
  intro step hstep
  simpa using List.filterMap_eq_nil_iff.1 h step hstep

theorem InOrder.ended_append {history : List (Step C T P)} (hlive : endings history = []) (last : Step C T P) :
    ∀ before step after, history ++ [last] = before ++ step :: after → step.ending.isSome = true → after = [] := by
  intro before step after heq hending
  rcases List.eq_nil_or_concat after with rfl | ⟨rest, x, rfl⟩
  · rfl
  · have hinit : history ++ [last] = (before ++ step :: rest) ++ [x] := by simpa using heq
    obtain ⟨hhistory, -⟩ := List.append_inj' hinit rfl
    have hmem : step ∈ history := by simp [hhistory]
    rw [ending_eq_none hlive step hmem] at hending
    cases hending

/-- **The next page, fetched with the cursor the last one returned.** -/
theorem InOrder.page {history : List (Step C T P)} (h : InOrder history) (hlive : endings history = []) {a : Applied C P}
    (hnumber : a.number = (pages history).length) (hcursor : a.cursor = cursorAfter (pages history)) (ending : Option T) :
    InOrder (history ++ [.page a ending]) where
  numbered i b hb := by
    rw [pages_page, List.getElem?_append] at hb
    split at hb
    · exact h.numbered i b hb
    · rename_i hlt
      rw [List.getElem?_singleton] at hb
      split at hb
      · cases hb
        omega
      · cases hb
  first b hb := by
    rw [pages_page] at hb
    cases hpages : pages history with
    | nil =>
      simp only [hpages, List.nil_append, List.getElem?_cons_zero, Option.some.injEq] at hb
      rw [← hb, hcursor, hpages]
      rfl
    | cons p ps =>
      simp only [hpages, List.cons_append, List.getElem?_cons_zero, Option.some.injEq] at hb
      exact h.first b (by simp [hpages, hb])
  chained i b c hb hc := by
    rw [pages_page, List.getElem?_append] at hb hc
    by_cases hlt : i + 1 < (pages history).length
    · rw [if_pos hlt] at hc
      rw [if_pos (by omega)] at hb
      exact h.chained i b c hb hc
    · rw [if_neg hlt, List.getElem?_singleton] at hc
      split at hc
      · rename_i hlast
        have hi : i < (pages history).length := by omega
        rw [if_pos hi] at hb
        cases hc
        rw [hcursor, cursorAfter, List.getLast?_eq_getElem?, show (pages history).length - 1 = i by omega, hb]
        rfl
      · cases hc
  ended := InOrder.ended_append hlive _

theorem InOrder.stop {history : List (Step C T P)} (h : InOrder history) (hlive : endings history = []) (ending : T) :
    InOrder (history ++ [.stop ending]) where
  numbered i a ha := h.numbered i a (by rwa [pages_stop] at ha)
  first a ha := h.first a (by rwa [pages_stop] at ha)
  chained i a b ha hb := h.chained i a b (by rwa [pages_stop] at ha) (by rwa [pages_stop] at hb)
  ended := InOrder.ended_append hlive _

theorem InOrder.length_endings_le {history : List (Step C T P)} (h : InOrder history) : (endings history).length ≤ 1 := by
  by_cases hlive : endings history = []
  · simp [hlive]
  · obtain ⟨e, he⟩ := List.exists_mem_of_ne_nil _ hlive
    obtain ⟨step, hstep, hending⟩ := List.mem_filterMap.1 he
    obtain ⟨before, after, rfl⟩ := List.append_of_mem hstep
    obtain rfl : after = [] := h.ended before step after rfl (by simp [hending])
    -- nothing before the ending ends the traversal either
    have hbefore : before.filterMap Step.ending = [] := by
      refine List.filterMap_eq_nil_iff.2 fun earlier hearlier => ?_
      by_contra hne
      obtain ⟨front, middle, rfl⟩ := List.append_of_mem hearlier
      have hnil := h.ended front earlier (middle ++ [step]) (by simp) (Option.isSome_iff_ne_none.2 hne)
      simp at hnil
    simp [endings, hbefore, hending]

end Traversal
