/-
When a computation that can raise returns, and what it returned on the way.
-/
import Mathlib.Data.List.Forall2

namespace ExceptFacts

variable {ε α β : Type}

theorem map_eq_ok {f : α → β} {x : Except ε α} {b : β} : x.map f = .ok b ↔ ∃ a, x = .ok a ∧ f a = b := by
  cases x with
  | ok a => simp [Except.map]
  | error e => simp [Except.map]

theorem bind_eq_ok {f : α → Except ε β} {x : Except ε α} {b : β} :
    (x >>= f) = .ok b ↔ ∃ a, x = .ok a ∧ f a = .ok b := by
  cases x with
  | ok a => simp [bind, Except.bind]
  | error e => simp [bind, Except.bind]

theorem bind_eq_error {f : α → Except ε β} {x : Except ε α} {e : ε} :
    x >>= f = .error e ↔ x = .error e ∨ ∃ a, x = .ok a ∧ f a = .error e := by
  cases x <;> simp [bind, Except.bind]

/-- A step that goes through, and one behind it that does from what the first gave. -/
theorem exists_bind {f : α → Except ε β} {x : Except ε α} {P : α → Prop} {Q : β → Prop} (hx : ∃ a, x = .ok a ∧ P a)
    (hf : ∀ a, P a → ∃ b, f a = .ok b ∧ Q b) : ∃ b, (x >>= f) = .ok b ∧ Q b := by
  obtain ⟨a, rfl, ha⟩ := hx
  exact hf a ha

theorem toOption_eq_some {x : Except ε α} {a : α} : x.toOption = .some a ↔ x = .ok a := by
  cases x <;> simp [Except.toOption]

theorem check_eq_ok {c : Prop} [Decidable c] {e : ε} {x : Except ε α} {b : α} :
    (if c then .error e else x) = .ok b ↔ ¬ c ∧ x = .ok b := by
  by_cases hc : c
  · simp [hc]
  · simp [hc]

theorem mapM_eq_ok {f : α → Except ε β} {l : List α} {out : List β} :
    l.mapM f = .ok out ↔ List.Forall₂ (fun a b => f a = .ok b) l out := by
  induction l generalizing out with
  | nil =>
    rw [List.mapM_nil, List.forall₂_nil_left_iff]
    constructor
    · intro h; cases h; rfl
    · rintro rfl; rfl
  | cons a l ih =>
    rw [List.mapM_cons, bind_eq_ok, List.forall₂_cons_left_iff]
    constructor
    · rintro ⟨b, hb, h⟩
      obtain ⟨bs, hbs, hout⟩ := bind_eq_ok.mp h
      cases hout
      exact ⟨b, bs, hb, ih.mp hbs, rfl⟩
    · rintro ⟨b, bs, hb, hbs, rfl⟩
      exact ⟨b, hb, bind_eq_ok.mpr ⟨bs, ih.mpr hbs, rfl⟩⟩

theorem exists_of_forall₂ {R : α → β → Prop} {l : List α} {out : List β} (h : List.Forall₂ R l out) {b : β} (hb : b ∈ out) :
    ∃ a ∈ l, R a b := by
  induction h with
  | nil => cases hb
  | @cons a b' l out hhead _ ih =>
    rcases List.mem_cons.mp hb with rfl | hb
    · exact ⟨a, by simp, hhead⟩
    · obtain ⟨a', hmem, ha'⟩ := ih hb
      exact ⟨a', by simp [hmem], ha'⟩

theorem mapM_eq_error {f : α → Except ε β} {l : List α} {e : ε} (h : l.mapM f = .error e) : ∃ a ∈ l, f a = .error e := by
  induction l with
  | nil => cases h
  | cons a l ih =>
    rw [List.mapM_cons] at h
    cases ha : f a with
    | error e' =>
      rw [ha] at h
      cases h
      exact ⟨a, by simp, ha⟩
    | ok b =>
      cases hl : l.mapM f with
      | error e' =>
        rw [ha, hl] at h
        cases h
        obtain ⟨a', hmem, ha'⟩ := ih hl
        exact ⟨a', by simp [hmem], ha'⟩
      | ok bs =>
        rw [ha, hl] at h
        cases h

theorem exists_mapM {f : α → Except ε β} {l : List α} (h : ∀ a ∈ l, ∃ b, f a = .ok b) : ∃ out, l.mapM f = .ok out := by
  cases hl : l.mapM f with
  | ok out => exact ⟨out, rfl⟩
  | error e =>
    obtain ⟨a, ha, herr⟩ := mapM_eq_error hl
    obtain ⟨b, hb⟩ := h a ha
    rw [hb] at herr
    cases herr

/-- A loop with an accumulator returns, with what each round keeps. -/
theorem exists_foldlM {I : β → Prop} {f : β → α → Except ε β} {l : List α}
    (h : ∀ a ∈ l, ∀ b, I b → ∃ b', f b a = .ok b' ∧ I b') {b : β} (hb : I b) : ∃ b', l.foldlM f b = .ok b' ∧ I b' := by
  induction l generalizing b with
  | nil => exact ⟨b, rfl, hb⟩
  | cons a l ih =>
    obtain ⟨b', hb', hI⟩ := h a (by simp) b hb
    obtain ⟨b'', hb'', hI'⟩ := ih (fun a' ha' => h a' (by simp [ha'])) hI
    exact ⟨b'', by rw [List.foldlM_cons, bind_eq_ok]; exact ⟨b', hb', hb''⟩, hI'⟩

end ExceptFacts
