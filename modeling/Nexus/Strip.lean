/-
`str.strip`: the whitespace it takes off a text's edges, and what it leaves.
-/
import Nexus.Base
import Mathlib.Data.List.DropRight
import Mathlib.Data.List.Infix

namespace Nexus

variable {t : List Char} {c : Char}

theorem strip_split (t : List Char) : ∃ a b, t = a ++ pythonStrip t ++ b ∧ (∀ c ∈ a, isPythonSpace c = true) ∧
    ∀ c ∈ b, isPythonSpace c = true := by
  refine ⟨t.takeWhile isPythonSpace, (t.dropWhile isPythonSpace).rtakeWhile isPythonSpace, ?_, ?_, ?_⟩
  · rw [List.append_assoc]
    have hright : pythonStrip t ++ (t.dropWhile isPythonSpace).rtakeWhile isPythonSpace = t.dropWhile isPythonSpace :=
      List.rdropWhile_append_rtakeWhile ..
    rw [hright, List.takeWhile_append_dropWhile]
  · exact fun c hc => List.mem_takeWhile_imp hc
  · exact fun c hc => List.mem_rtakeWhile_imp hc

theorem strip_getLast (h : c ∈ (pythonStrip t).getLast?) : isPythonSpace c = false := by
  have hne : pythonStrip t ≠ [] := by
    rintro heq
    simp [heq] at h
  have hlast : ¬ isPythonSpace ((pythonStrip t).getLast hne) = true :=
    List.rdropWhile_last_not isPythonSpace (t.dropWhile isPythonSpace) hne
  rw [List.getLast?_eq_some_getLast hne, Option.mem_some_iff] at h
  rw [← h]
  exact Bool.eq_false_iff.2 hlast

theorem strip_head (h : c ∈ (pythonStrip t).head?) : isPythonSpace c = false := by
  have hprefix : pythonStrip t <+: t.dropWhile isPythonSpace := List.rdropWhile_prefix isPythonSpace _
  obtain ⟨b, hb⟩ := hprefix
  cases hs : pythonStrip t with
  | nil => simp [hs] at h
  | cons d rest =>
    obtain rfl : d = c := by simpa [hs] using h
    have hhead : (t.dropWhile isPythonSpace).head? = .some d := by
      rw [← hb, hs]
      rfl
    have hnot := List.head?_dropWhile_not isPythonSpace t
    rw [hhead] at hnot
    simpa using hnot

theorem strip_eq_self (hhead : ∀ c ∈ t.head?, isPythonSpace c = false) (hlast : ∀ c ∈ t.getLast?, isPythonSpace c = false) :
    pythonStrip t = t := by
  have hdrop : t.dropWhile isPythonSpace = t := by
    cases t with
    | nil => rfl
    | cons c t => exact List.dropWhile_cons_of_neg (by simp [hhead c rfl])
  have hr : t.rdropWhile isPythonSpace = t := by
    refine List.rdropWhile_eq_self_iff.2 fun hne => ?_
    simp [hlast _ (List.getLast?_eq_some_getLast hne)]
  rw [pythonStrip, hdrop]
  exact hr

theorem strip_strip (t : List Char) : pythonStrip (pythonStrip t) = pythonStrip t :=
  strip_eq_self (fun _ hc => strip_head hc) fun _ hc => strip_getLast hc

end Nexus
