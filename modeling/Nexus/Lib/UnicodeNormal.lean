/-
Unicode normalization forms D and C over a character database: full canonical
decompositions, combining classes and primary composites.

Form D decomposes every character and puts marks in the order of their classes;
form C then gives a starter the marks and starters it composes with, where
nothing blocks them. `perm_nfd` and `sum_length_nfc` say what the two forms
keep: the decomposed characters, and how many they are.
-/
import Mathlib.Data.List.Basic
import Mathlib.Algebra.BigOperators.Group.List.Basic
import Mathlib.Algebra.Ring.Nat

namespace UnicodeNormal

/-- The data the forms depend on. -/
structure Ucd where
  /-- The full canonical decomposition; of most characters, itself. -/
  decomposition : Char → List Char
  combiningClass : Char → Nat
  /-- The primary composite of two characters, if there is one. -/
  composite : Char → Char → Option Char
  decomposition_ne_nil : ∀ c, decomposition c ≠ []
  decomposition_of_mem : ∀ c, ∀ d ∈ decomposition c, decomposition d = [d]
  length_composite : ∀ a b c, composite a b = .some c →
    (decomposition c).length = (decomposition a).length + (decomposition b).length

namespace Ucd

variable (U : Ucd)

/-- Behind the marks of a lower class that start the list. -/
def insertMark (c : Char) : List Char → List Char
  | [] => [c]
  | d :: l => if U.combiningClass d ≠ 0 ∧ U.combiningClass d < U.combiningClass c then d :: insertMark c l else c :: d :: l

/-- Marks in the order of their classes, those of one class as they stand. -/
def canonicalOrder : List Char → List Char
  | [] => []
  | c :: l => U.insertMark c (canonicalOrder l)

def nfd (t : List Char) : List Char := U.canonicalOrder (t.flatMap U.decomposition)

/-- Whether one of the marks since the starter keeps `c` from it. -/
def blocked (kept : List Char) (c : Char) : Bool :=
  kept.any fun b => U.combiningClass b == 0 || U.combiningClass c ≤ U.combiningClass b

/-- What follows a starter and the marks since it that stay. -/
def composeFrom (starter : Char) (kept : List Char) : List Char → List Char
  | [] => starter :: kept
  | c :: l => match (if U.blocked kept c then .none else U.composite starter c) with
    | .some composed => composeFrom composed kept l
    | .none => if U.combiningClass c = 0 then starter :: kept ++ composeFrom c [] l else composeFrom starter (kept ++ [c]) l

def compose : List Char → List Char
  | [] => []
  | c :: l => if U.combiningClass c = 0 then U.composeFrom c [] l else c :: compose l

def nfc (t : List Char) : List Char := U.compose (U.nfd t)

variable {U}

theorem perm_insertMark {c : Char} : ∀ {l : List Char}, (U.insertMark c l).Perm (c :: l)
  | [] => .refl _
  | d :: l => by
    simp only [insertMark]
    split
    · exact (perm_insertMark.cons d).trans (.swap c d l)
    · exact .refl _

theorem perm_canonicalOrder : ∀ {l : List Char}, (U.canonicalOrder l).Perm l
  | [] => .refl _
  | c :: _ => perm_insertMark.trans (perm_canonicalOrder.cons c)

/-- **Form D holds the decomposed characters.** -/
theorem perm_nfd (t : List Char) : (U.nfd t).Perm (t.flatMap U.decomposition) := perm_canonicalOrder

theorem length_nfd_singleton (c : Char) : (U.nfd [c]).length = (U.decomposition c).length := by
  simpa using (U.perm_nfd [c]).length_eq

theorem nfd_singleton_ne_nil (c : Char) : U.nfd [c] ≠ [] := by
  intro h
  have hlen := U.length_nfd_singleton c
  rw [h, List.length_nil] at hlen
  exact U.decomposition_ne_nil c (List.length_eq_zero_iff.1 hlen.symm)

/-- How many characters a text decomposes into. -/
abbrev decomposedLength (U : Ucd) (l : List Char) : Nat := (l.map fun c => (U.decomposition c).length).sum

theorem decomposedLength_composeFrom : ∀ {l kept : List Char} {starter : Char},
    U.decomposedLength (U.composeFrom starter kept l) = U.decomposedLength (starter :: kept) + U.decomposedLength l
  | [], kept, starter => by simp [composeFrom, decomposedLength]
  | c :: l, kept, starter => by
    simp only [composeFrom]
    split
    next composed h =>
      have hcomposite : U.composite starter c = .some composed := by
        split at h
        · cases h
        · exact h
      rw [decomposedLength_composeFrom]
      simp only [decomposedLength, List.map_cons, List.sum_cons, U.length_composite _ _ _ hcomposite]
      omega
    next =>
      split
      · rw [decomposedLength, List.map_append, List.sum_append, ← decomposedLength, ← decomposedLength,
          decomposedLength_composeFrom]
        simp [decomposedLength]
      · rw [decomposedLength_composeFrom]
        simp only [decomposedLength, List.map_cons, List.map_append, List.sum_cons, List.sum_append, List.map_nil,
          List.sum_nil]
        omega

theorem decomposedLength_compose : ∀ {l : List Char}, U.decomposedLength (U.compose l) = U.decomposedLength l
  | [] => rfl
  | c :: l => by
    simp only [compose]
    split
    · rw [decomposedLength_composeFrom]
      simp [decomposedLength]
    · simp only [decomposedLength, List.map_cons, List.sum_cons]
      exact congrArg _ decomposedLength_compose

theorem decomposition_of_mem_nfd {t : List Char} {c : Char} (h : c ∈ U.nfd t) : U.decomposition c = [c] := by
  obtain ⟨b, -, hc⟩ := List.mem_flatMap.1 ((U.perm_nfd t).mem_iff.1 h)
  exact U.decomposition_of_mem b c hc

/-- **The characters of form C decompose into as many as form D has.** -/
theorem sum_length_nfc (t : List Char) : ((U.nfc t).map fun c => (U.nfd [c]).length).sum = (U.nfd t).length := by
  have hone : U.decomposedLength (U.nfd t) = (U.nfd t).length := by
    have hmap : (U.nfd t).map (fun c => (U.decomposition c).length) = (U.nfd t).map fun _ => 1 :=
      List.map_congr_left fun c hc => by rw [decomposition_of_mem_nfd hc, List.length_singleton]
    rw [decomposedLength, hmap, List.map_const', List.sum_replicate]
    exact Nat.mul_one _
  rw [List.map_congr_left fun c _ => length_nfd_singleton c, ← decomposedLength, nfc, decomposedLength_compose, hone]

end Ucd

end UnicodeNormal
