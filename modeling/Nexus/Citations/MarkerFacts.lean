/-
The marker grammar: what a marker is, and how a scanned text scans after its
plain markers are renumbered, after it is cut short and after a line is added.

Whether a marker begins at a bracket depends on the text after it only through
its first character and the first that is no digit; whether it is linked, only
through the first character and the first that ends a link. Renumbering changes
none of these.
-/
import Mathlib.Data.List.TakeWhile
import Nexus.Citations.Markers

namespace Nexus.Citations
open FindIter ExceptFacts

/-! ## Digits -/

theorem decimal_of_isDigit {c : Char} (h : c.isDigit = true) : decimal c = .some (c.toNat - '0'.toNat) := by
  have hrange : 48 ≤ c.toNat ∧ c.toNat ≤ 57 := by
    simpa [Char.isDigit, UInt32.le_iff_toNat_le] using h
  have hfirst : (48 ≤ c.toNat && c.toNat < 48 + 10) = true := by
    simp only [Bool.and_eq_true, decide_eq_true_eq]
    omega
  have hzeros : decimalZeros = 48 :: decimalZeros.tail := rfl
  rw [decimal, hzeros, List.find?_cons_of_pos (p := fun z => z ≤ c.toNat && c.toNat < z + 10) hfirst]
  rfl

theorem isDecimal_of_mem_toDigits {n : Nat} {c : Char} (h : c ∈ Nat.toDigits 10 n) : isDecimal c = true := by
  rw [isDecimal, decimal_of_isDigit (Nat.isDigit_of_mem_toDigits (by omega) (by omega) h)]
  rfl

/-- The number a run of digits writes. -/
def digitsValue (digits : Text) : Nat := digits.foldl (fun n c => 10 * n + (decimal c).getD 0) 0

theorem pyInt_eq_ok {digits : Text} {n : Nat} :
    pyInt digits = .ok n ↔ digits.length ≤ maxStrDigits ∧ n = digitsValue digits := by
  rw [pyInt, check_eq_ok, Nat.not_lt, Except.ok.injEq, eq_comm (a := n)]
  rfl

theorem digitsValue_toDigits (n : Nat) : digitsValue (Nat.toDigits 10 n) = n := by
  have hfold : ∀ (digits : Text) (init : Nat), (∀ c ∈ digits, c.isDigit = true) →
      digits.foldl (fun n c => 10 * n + (decimal c).getD 0) init = Nat.ofDigitChars 10 digits init := by
    intro digits
    induction digits with
    | nil => intro init _; rfl
    | cons c digits ih =>
      intro init hall
      rw [List.foldl_cons, decimal_of_isDigit (hall c (by simp)), Option.getD_some,
        ih _ fun d hd => hall d (by simp [hd])]
      rfl
  rw [digitsValue, hfold _ 0 fun c hc => Nat.isDigit_of_mem_toDigits (by omega) (by omega) hc]
  exact Nat.ofDigitChars_ten_toDigits

/-! ## Markers -/

def linkText : Option Text → Text
  | .none => []
  | .some link => '(' :: (link ++ [')'])

def MarkerGroups.text (g : MarkerGroups) : Text := '[' :: (g.digits ++ ']' :: linkText g.link)

theorem takeWhile_append_cons {p : Char → Bool} {xs : Text} {c : Char} (hxs : ∀ x ∈ xs, p x = true) (hc : p c = false)
    (ys : Text) :
    (xs ++ c :: ys).takeWhile p = xs ∧ (xs ++ c :: ys).dropWhile p = c :: ys := by
  constructor
  · rw [List.takeWhile_append_of_pos hxs, List.takeWhile_cons_of_neg (by simp [hc]), List.append_nil]
  · rw [List.dropWhile_append_of_pos hxs, List.dropWhile_cons_of_neg (by simp [hc])]

theorem linkGroup_eq_some {s link : Text} :
    linkGroup s = .some link ↔ (∀ c ∈ link, endsLink c = false) ∧ ∃ rest, s = '(' :: (link ++ ')' :: rest) := by
  constructor
  · intro h
    unfold linkGroup at h
    split at h
    · rename_i s
      split at h
      · rename_i rest hdrop
        cases h
        refine ⟨fun c hc => by simpa using List.mem_takeWhile_imp hc, rest, ?_⟩
        rw [← hdrop, List.takeWhile_append_dropWhile]
      · cases h
    · cases h
  · rintro ⟨hlink, rest, rfl⟩
    have hstays : ∀ c ∈ link, (!endsLink c) = true := fun c hc => by simp [hlink c hc]
    obtain ⟨htake, hdrop⟩ := takeWhile_append_cons hstays (c := ')') (by decide) rest
    simp only [linkGroup, htake, hdrop]

/-- **What the expression matches.** -/
theorem markerRe_eq_some {s : Text} {g : MarkerGroups} {n : Nat} :
    markerRe s = .some (g, n) ↔
      g.digits ≠ [] ∧ (∀ c ∈ g.digits, isDecimal c = true) ∧ n + 1 = g.text.length ∧
        ∃ rest, s = '[' :: (g.digits ++ ']' :: rest) ∧ linkGroup rest = g.link := by
  constructor
  · intro h
    unfold markerRe at h
    split at h
    · rename_i s
      simp only at h
      split at h
      · rename_i rest hdrop
        by_cases hdigits : s.takeWhile isDecimal = []
        · rw [if_pos hdigits] at h
          cases h
        · rw [if_neg hdigits] at h
          have hs : s = s.takeWhile isDecimal ++ ']' :: rest := by rw [← hdrop, List.takeWhile_append_dropWhile]
          have hall : ∀ c ∈ s.takeWhile isDecimal, isDecimal c = true := fun c hc => List.mem_takeWhile_imp hc
          cases hlink : linkGroup rest with
          | none =>
            rw [hlink] at h
            cases h
            exact ⟨hdigits, hall, by simp [MarkerGroups.text, linkText], rest, by rw [← hs], hlink⟩
          | some link =>
            rw [hlink] at h
            cases h
            refine ⟨hdigits, hall, ?_, rest, by rw [← hs], hlink⟩
            simp only [MarkerGroups.text, linkText, List.length_cons, List.length_append, List.length_nil]
            omega
      · cases h
    · cases h
  · rintro ⟨hdigits, hall, hn, rest, rfl, hlink⟩
    obtain ⟨htake, hdrop⟩ := takeWhile_append_cons hall (c := ']') (by decide) rest
    obtain ⟨digits, link⟩ := g
    subst hlink
    simp only at hdigits hall hn htake hdrop ⊢
    simp only [markerRe, htake, hdrop, if_neg hdigits]
    cases hlink : linkGroup rest with
    | none =>
      rw [hlink] at hn
      simp only [MarkerGroups.text, linkText, List.length_cons, List.length_append, List.length_nil] at hn ⊢
      simp only [Option.some.injEq, Prod.mk.injEq, true_and]
      omega
    | some link =>
      rw [hlink] at hn
      simp only [MarkerGroups.text, linkText, List.length_cons, List.length_append, List.length_nil] at hn ⊢
      simp only [Option.some.injEq, Prod.mk.injEq, true_and]
      omega

/-- What a marker writes between its brackets. -/
structure Digits (digits : Text) : Prop where
  ne_nil : digits ≠ []
  decimal : ∀ c ∈ digits, isDecimal c = true

theorem digits_toDigits (n : Nat) : Digits (Nat.toDigits 10 n) :=
  ⟨Nat.toDigits_ne_nil, fun _ h => isDecimal_of_mem_toDigits h⟩

theorem markerRe_marker {digits : Text} (h : Digits digits) (rest : Text) :
    markerRe ('[' :: (digits ++ ']' :: rest)) =
      .some (⟨digits, linkGroup rest⟩, (MarkerGroups.text ⟨digits, linkGroup rest⟩).length - 1) :=
  markerRe_eq_some.2 ⟨h.ne_nil, h.decimal, by simp [MarkerGroups.text], rest, rfl, rfl⟩

theorem eq_append_of_linkGroup {rest : Text} {link : Option Text} (h : linkGroup rest = link) :
    ∃ tail, rest = linkText link ++ tail := by
  cases link with
  | none => exact ⟨rest, rfl⟩
  | some link =>
    obtain ⟨-, tail, rfl⟩ := linkGroup_eq_some.1 h
    exact ⟨tail, by simp [linkText]⟩

theorem eq_text_of_match {s : Text} {g : MarkerGroups} {n : Nat} (h : markerRe s = .some (g, n)) :
    ∃ tail, s = g.text ++ tail ∧ n + 1 = g.text.length := by
  obtain ⟨-, -, hn, rest, rfl, hlink⟩ := markerRe_eq_some.1 h
  obtain ⟨tail, rfl⟩ := eq_append_of_linkGroup hlink
  exact ⟨tail, by simp [MarkerGroups.text], hn⟩

theorem bounded_markerRe : Bounded markerRe := by
  intro c s g n h
  obtain ⟨tail, hs, hn⟩ := eq_text_of_match h
  have hlen := congrArg List.length hs
  rw [List.length_cons, List.length_append] at hlen
  omega

/-- `[`, decimal digits and `]` somewhere in a text. -/
def HasMarker (s : Text) : Prop := ∃ pre digits post, s = pre ++ '[' :: (digits ++ ']' :: post) ∧ Digits digits

def pieces (s : Text) : List (Piece Char MarkerGroups) := scan markerRe 0 s

theorem scans_pieces (s : Text) : Scans markerRe s (pieces s) := scans_scan bounded_markerRe s

/-- **A text has no match exactly if no bracketed number stands in it.** -/
theorem hits_pieces_eq_nil {s : Text} : hits (pieces s) = [] ↔ ¬ HasMarker s := by
  rw [(scans_pieces s).hits_eq_nil]
  constructor
  · rintro hnone ⟨pre, digits, post, rfl, hdigits⟩
    have h := hnone pre '[' (digits ++ ']' :: post) rfl
    rw [markerRe_marker hdigits] at h
    cases h
  · intro hno pre c t heq
    cases hmatch : markerRe (c :: t) with
    | none => rfl
    | some found =>
      obtain ⟨hdigits, hall, -, rest, hrest, -⟩ := markerRe_eq_some.1 hmatch
      exact absurd ⟨pre, found.1.digits, rest, by rw [heq, hrest], hdigits, hall⟩ hno

end Nexus.Citations
