/-
Lowercasing of a text over a table of case mappings, as `str.lower` does it.

A character becomes its full lowercase mapping. A capital sigma alone looks at
what stands around it. Lowercased characters stay as they are, wherever they
stand (`lower_of_forall_mem`), and of ASCII only letters come of others.
-/
import Mathlib

namespace LowerCase

/-! ## ASCII letters -/

theorem toLower_of_not_isAlpha {c : Char} (h : c.toLower.isAlpha = false) : c.toLower = c := by
  unfold Char.toLower at h ⊢
  split
  next hupper =>
    rw [dif_pos hupper] at h
    exfalso
    simp only [Char.isAlpha, Char.isUpper, Char.isLower, Bool.or_eq_false_iff, Bool.and_eq_false_iff,
      decide_eq_false_iff_not, ge_iff_le, UInt32.le_iff_toNat_le, UInt32.toNat_add] at h hupper
    have hsub : ('a'.val - 'A'.val).toNat = 32 := by decide
    have hconst : 'A'.val.toNat = 65 ∧ 'Z'.val.toNat = 90 ∧ 'a'.val.toNat = 97 ∧ 'z'.val.toNat = 122 := by decide
    omega
  next => rfl

theorem toLower_of_not_ascii {c : Char} (h : 128 ≤ c.toNat) : c.toLower = c := by
  unfold Char.toLower
  split
  next hupper =>
    simp only [ge_iff_le, UInt32.le_iff_toNat_le] at hupper
    have hconst : 'Z'.val.toNat = 90 := by decide
    have hval : c.toNat = c.val.toNat := rfl
    omega
  next => rfl

theorem toLower_lt {c : Char} (h : c.toNat < 128) : c.toLower.toNat < 128 := by
  unfold Char.toLower
  split
  next hupper =>
    simp only [ge_iff_le, UInt32.le_iff_toNat_le] at hupper
    have hconst : 'Z'.val.toNat = 90 := by decide
    have hsub : ('a'.val - 'A'.val).toNat = 32 := by decide
    show (c.val + ('a'.val - 'A'.val)).toNat < 128
    rw [UInt32.toNat_add]
    omega
  next => exact h

theorem toLower_toLower (c : Char) : c.toLower.toLower = c.toLower := by
  by_cases hupper : c.toLower.val ≥ 'A'.val ∧ c.toLower.val ≤ 'Z'.val
  · exfalso
    unfold Char.toLower at hupper
    split at hupper
    next h =>
      simp only [ge_iff_le, UInt32.le_iff_toNat_le, UInt32.toNat_add] at h hupper
      have hsub : ('a'.val - 'A'.val).toNat = 32 := by decide
      have hconst : 'A'.val.toNat = 65 ∧ 'Z'.val.toNat = 90 := by decide
      omega
    next h => exact h hupper
  · rw [Char.toLower, dif_neg hupper]

/-! ## Texts -/

/-- The data lowercasing depends on. -/
structure CaseTable where
  /-- The full mapping of a character whose context does not matter. -/
  lowerOf : Char → List Char
  cased : Char → Bool
  caseIgnorable : Char → Bool
  lowerOf_ascii : ∀ c, c.toNat < 128 → lowerOf c = [c.toLower]
  ascii_of_mem : ∀ c, 128 ≤ c.toNat → ∀ d ∈ lowerOf c, d.toNat < 128 → d.isAlpha = true
  lowerOf_ne_nil : ∀ c, lowerOf c ≠ []
  lowerOf_of_mem : ∀ c, ∀ d ∈ lowerOf c, d ≠ 'Σ' ∧ lowerOf d = [d]
  lowerOf_sigma : lowerOf 'σ' = ['σ'] ∧ lowerOf 'ς' = ['ς']

namespace CaseTable

variable (T : CaseTable)

/-- Whether a sigma ends a word: something cased before it, nothing cased behind it. -/
def finalSigma (before behind : List Char) : Bool :=
  ((before.dropWhile T.caseIgnorable).head?.any T.cased) &&
    !((behind.dropWhile T.caseIgnorable).head?.any T.cased)

/-- A character between what is before it, the nearest first, and what is behind it. -/
def lowerAt (before : List Char) (c : Char) (behind : List Char) : List Char :=
  if c = 'Σ' then (if T.finalSigma before behind then ['ς'] else ['σ']) else T.lowerOf c

def lowerFrom (before : List Char) : List Char → List Char
  | [] => []
  | c :: behind => T.lowerAt before c behind ++ lowerFrom (c :: before) behind

/-- `text.lower()` -/
def lower (text : List Char) : List Char := T.lowerFrom [] text

variable {T}

theorem mem_lowerFrom {before text : List Char} {d : Char} (h : d ∈ T.lowerFrom before text) :
    ∃ before c behind, c ∈ text ∧ d ∈ T.lowerAt before c behind := by
  induction text generalizing before with
  | nil => cases h
  | cons c behind ih =>
    rcases List.mem_append.1 h with h | h
    · exact ⟨before, c, behind, List.mem_cons_self, h⟩
    · obtain ⟨b, e, l, he, hd⟩ := ih h
      exact ⟨b, e, l, List.mem_cons_of_mem _ he, hd⟩

theorem mem_lowerAt {before behind : List Char} {c d : Char} (h : d ∈ T.lowerAt before c behind) :
    d ∈ T.lowerOf c ∨ c = 'Σ' ∧ (d = 'σ' ∨ d = 'ς') := by
  unfold lowerAt at h
  split at h
  next hc =>
    split at h
    · exact .inr ⟨hc, .inr (List.mem_singleton.1 h)⟩
    · exact .inr ⟨hc, .inl (List.mem_singleton.1 h)⟩
  next => exact .inl h

theorem stable_of_mem_lower {text : List Char} {d : Char} (h : d ∈ T.lower text) : d ≠ 'Σ' ∧ T.lowerOf d = [d] := by
  obtain ⟨_, c, _, _, hd⟩ := mem_lowerFrom h
  rcases mem_lowerAt hd with hd | ⟨_, rfl | rfl⟩
  · exact T.lowerOf_of_mem c d hd
  · exact ⟨by decide, T.lowerOf_sigma.1⟩
  · exact ⟨by decide, T.lowerOf_sigma.2⟩

theorem lowerFrom_of_forall_mem {before text : List Char} (h : ∀ d ∈ text, d ≠ 'Σ' ∧ T.lowerOf d = [d]) :
    T.lowerFrom before text = text := by
  induction text generalizing before with
  | nil => rfl
  | cons c behind ih =>
    obtain ⟨hc, hbehind⟩ := List.forall_mem_cons.1 h
    rw [lowerFrom, lowerAt, if_neg hc.1, hc.2, ih hbehind, List.singleton_append]

/-- **A text of lowercased characters is lowercased.** -/
theorem lower_of_forall_mem {text : List Char} (h : ∀ d ∈ text, d ≠ 'Σ' ∧ T.lowerOf d = [d]) : T.lower text = text :=
  lowerFrom_of_forall_mem h

/-- What is no ASCII letter and comes of a character is that character alone. -/
theorem lowerAt_of_mem {before behind : List Char} {c d : Char} (h : d ∈ T.lowerAt before c behind)
    (hascii : d.toNat < 128) (hletter : d.isAlpha = false) : d = c ∧ T.lowerAt before c behind = [c] := by
  rcases mem_lowerAt h with hd | ⟨_, rfl | rfl⟩
  · by_cases hc : c.toNat < 128
    · have hsigma : c ≠ 'Σ' := by
        rintro rfl
        exact absurd hc (by decide)
      rw [T.lowerOf_ascii c hc, List.mem_singleton] at hd
      rw [hd] at hletter
      have hsame := toLower_of_not_isAlpha hletter
      rw [lowerAt, if_neg hsigma, T.lowerOf_ascii c hc, hsame]
      exact ⟨hd.trans hsame, rfl⟩
    · rw [T.ascii_of_mem c (Nat.le_of_not_lt hc) d hd hascii] at hletter
      cases hletter
  · exact absurd hascii (by decide)
  · exact absurd hascii (by decide)

theorem mem_of_mem_lower {text : List Char} {d : Char} (h : d ∈ T.lower text) (hascii : d.toNat < 128)
    (hletter : d.isAlpha = false) : d ∈ text := by
  obtain ⟨_, c, _, hc, hd⟩ := mem_lowerFrom h
  rwa [(lowerAt_of_mem hd hascii hletter).1]

theorem lowerAt_ne_nil (before : List Char) (c : Char) (behind : List Char) : T.lowerAt before c behind ≠ [] := by
  unfold lowerAt
  split
  · split <;> simp
  · exact T.lowerOf_ne_nil c

/-- A text lowercased to ASCII without letters was that before. -/
theorem lower_eq_of_no_letters {text : List Char}
    (h : ∀ d ∈ T.lower text, d.toNat < 128 ∧ d.isAlpha = false) : T.lower text = text := by
  unfold lower at h ⊢
  generalize ([] : List Char) = before at h ⊢
  induction text generalizing before with
  | nil => rfl
  | cons c behind ih =>
    rw [lowerFrom, List.forall_mem_append] at h
    obtain ⟨d, hd⟩ := List.exists_mem_of_ne_nil _ (T.lowerAt_ne_nil before c behind)
    obtain ⟨hascii, hletter⟩ := h.1 d hd
    rw [lowerFrom, (lowerAt_of_mem hd hascii hletter).2, ih _ h.2, List.singleton_append]

theorem lower_ne_nil {text : List Char} (h : text ≠ []) : T.lower text ≠ [] := by
  obtain ⟨c, behind, rfl⟩ := List.exists_cons_of_ne_nil h
  intro hnil
  exact T.lowerAt_ne_nil [] c behind (List.append_eq_nil_iff.1 hnil).1

end CaseTable

end LowerCase
