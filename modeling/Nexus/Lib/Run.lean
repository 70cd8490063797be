/-
Labelled transition systems and what holds along their runs.

A run is written down with the state each step reaches (`Run`), so that a
property of the steps (`Along`) and a property of the states reached are both
read off the same list. `Run.invariant_of_guarded` is the induction every
safety theorem uses: a property one step keeps whenever the step is guarded
holds of every state a guarded run reaches. `Run.invariant_iff_guarded` says
the guard is exact when a step keeps the property only if guarded.

A version is a value no step decreases. `Run.along_not_of_version` is the
argument behind compare-and-set: when the version a client saw is still there,
no step that raises it has come between.
-/
import Mathlib.Order.Defs.PartialOrder

namespace Transition

variable {σ ε : Type}

/-- Where runs start, and the steps a label allows. -/
structure System (σ ε : Type) where
  init : σ → Prop
  step : σ → ε → σ → Prop

/-- `P` holds of every step of a list of steps taken one after the other. -/
def Along (P : σ → ε → σ → Prop) : σ → List (ε × σ) → Prop
  | _, [] => True
  | s, (e, t) :: tr => P s e t ∧ Along P t tr

/-- The state a list of steps ends in. -/
def last : σ → List (ε × σ) → σ
  | s, [] => s
  | _, (_, t) :: tr => last t tr

/-- Each entry of `tr` is a label and the state its step reaches. -/
def System.Run (S : System σ ε) (s : σ) (tr : List (ε × σ)) : Prop := Along S.step s tr

/-- The states runs reach. -/
inductive System.Reachable (S : System σ ε) : σ → Prop
  | init : S.init s → S.Reachable s
  | step : S.Reachable s → S.step s e t → S.Reachable t

/-- A system whose steps are computed: `next s e` is the state after `e`, when
`e` is allowed in `s`. -/
def System.ofFun (init : σ → Prop) (next : σ → ε → Option σ) : System σ ε where
  init := init
  step s e t := next s e = some t

@[simp] theorem System.ofFun_step {init : σ → Prop} {next : σ → ε → Option σ} {s e t} :
    (System.ofFun init next).step s e t ↔ next s e = some t := Iff.rfl

@[simp] theorem System.ofFun_init {init : σ → Prop} {next : σ → ε → Option σ} {s} :
    (System.ofFun init next).init s ↔ init s := Iff.rfl

@[simp] theorem Along.nil {P : σ → ε → σ → Prop} {s} : Along P s [] := trivial

theorem Along.cons {P : σ → ε → σ → Prop} {s e t tr} (h : P s e t) (ht : Along P t tr) :
    Along P s ((e, t) :: tr) := ⟨h, ht⟩

theorem Along.mono {P Q : σ → ε → σ → Prop} (hPQ : ∀ s e t, P s e t → Q s e t) :
    ∀ {s tr}, Along P s tr → Along Q s tr
  | _, [], _ => trivial
  | _, (_, _) :: _, h => ⟨hPQ _ _ _ h.1, Along.mono hPQ h.2⟩

theorem Along.and {P Q : σ → ε → σ → Prop} :
    ∀ {s tr}, Along P s tr → Along Q s tr → Along (fun s e t => P s e t ∧ Q s e t) s tr
  | _, [], _, _ => trivial
  | _, (_, _) :: _, hP, hQ => ⟨⟨hP.1, hQ.1⟩, Along.and hP.2 hQ.2⟩

theorem Along.iff_of {P Q : σ → ε → σ → Prop} :
    ∀ {s tr}, Along (fun s e t => P s e t ↔ Q s e t) s tr → (Along P s tr ↔ Along Q s tr)
  | _, [], _ => Iff.rfl
  | _, (_, _) :: _, h => and_congr h.1 (Along.iff_of h.2)

instance Along.decidable {P : σ → ε → σ → Prop} [∀ s e t, Decidable (P s e t)] :
    ∀ s tr, Decidable (Along P s tr)
  | _, [] => .isTrue trivial
  | s, (e, t) :: tr => @instDecidableAnd (P s e t) (Along P t tr) _ (Along.decidable t tr)

theorem Along.append {P : σ → ε → σ → Prop} {s tr tr'} :
    Along P s (tr ++ tr') ↔ Along P s tr ∧ Along P (last s tr) tr' := by
  induction tr generalizing s with
  | nil => simp [last]
  | cons x tr ih => simp [Along, last, ih, and_assoc]

theorem last_append {s : σ} {tr tr' : List (ε × σ)} : last s (tr ++ tr') = last (last s tr) tr' := by
  induction tr generalizing s with
  | nil => rfl
  | cons x tr ih => exact ih

/-- The run a list of labels gives, up to the first label that is refused. -/
def replay (next : σ → ε → Option σ) : σ → List ε → List (ε × σ)
  | _, [] => []
  | s, e :: es => match next s e with
    | .some t => (e, t) :: replay next t es
    | .none => []

theorem System.run_replay {init : σ → Prop} {next : σ → ε → Option σ} :
    ∀ {s : σ} {es : List ε}, (System.ofFun init next).Run s (replay next s es)
  | _, [] => trivial
  | s, e :: es => by
    unfold replay
    split
    next t h => exact ⟨h, System.run_replay⟩
    next => trivial

/-! ## Invariants -/

theorem System.Reachable.invariant {S : System σ ε} {I : σ → Prop} (hinit : ∀ s, S.init s → I s)
    (hstep : ∀ s e t, S.step s e t → I s → I t) {s} (h : S.Reachable s) : I s := by
  induction h with
  | init h => exact hinit _ h
  | step _ hs ih => exact hstep _ _ _ hs ih

/-- A run from a reachable state stays among the reachable states. -/
theorem System.Reachable.of_run {S : System σ ε} {s tr} (h : S.Reachable s) (hr : S.Run s tr) :
    S.Reachable (last s tr) := by
  induction tr generalizing s with
  | nil => exact h
  | cons x tr ih => exact ih (h.step hr.1) hr.2

theorem System.reachable_replay {init : σ → Prop} {next : σ → ε → Option σ} {s : σ} (es : List ε) (h : init s) :
    (System.ofFun init next).Reachable (last s (replay next s es)) :=
  System.Reachable.of_run (.init h) System.run_replay

/-- A property a guarded step keeps holds of every state a guarded run reaches. -/
theorem System.Run.invariant_of_guarded {S : System σ ε} {I : σ → Prop} {G : σ → ε → Prop}
    (hstep : ∀ s e t, S.step s e t → I s → G s e → I t) :
    ∀ {s tr}, S.Run s tr → I s → Along (fun s e _ => G s e) s tr → ∀ x ∈ tr, I x.2
  | _, [], _, _, _ => by simp
  | s, (e, t) :: tr, hr, hI, hG => by
    have ht : I t := hstep s e t hr.1 hI hG.1
    intro x hx
    rcases List.mem_cons.1 hx with rfl | hx
    · exact ht
    · exact System.Run.invariant_of_guarded hstep hr.2 ht hG.2 x hx

/-- What a guarded step does from a good state, every step of a guarded run does. -/
theorem System.Run.along_of_guarded {S : System σ ε} {I : σ → Prop} {G : σ → ε → Prop} {P : σ → ε → σ → Prop}
    (hstep : ∀ s e t, S.step s e t → I s → G s e → I t ∧ P s e t) :
    ∀ {s tr}, S.Run s tr → I s → Along (fun s e _ => G s e) s tr → Along P s tr
  | _, [], _, _, _ => trivial
  | _, (e, t) :: _, hr, hI, hG =>
    have h := hstep _ e t hr.1 hI hG.1
    ⟨h.2, System.Run.along_of_guarded hstep hr.2 h.1 hG.2⟩

theorem System.Run.invariant {S : System σ ε} {I : σ → Prop} (hstep : ∀ s e t, S.step s e t → I s → I t)
    {s tr} (hr : S.Run s tr) (hI : I s) : ∀ x ∈ tr, I x.2 :=
  System.Run.invariant_of_guarded (G := fun _ _ => True) (fun s e t hs hI _ => hstep s e t hs hI) hr hI
    (hr.mono fun _ _ _ _ => trivial)

/-- What a step into a good state does, every step of a run through good states does. -/
theorem System.Run.along_of_states {S : System σ ε} {I : σ → Prop} {P : σ → ε → σ → Prop}
    (hstep : ∀ s e t, S.step s e t → I t → P s e t) :
    ∀ {s tr}, S.Run s tr → (∀ x ∈ tr, I x.2) → Along P s tr
  | _, [], _, _ => trivial
  | _, (e, t) :: _, hr, hI =>
    ⟨hstep _ e t hr.1 (hI (e, t) (by simp)),
      System.Run.along_of_states hstep hr.2 fun x hx => hI x (by simp [hx])⟩

/-- A guarded step keeps an invariant behind a property, and a step that keeps
the property is guarded. -/
theorem System.Run.forall_iff_guarded {S : System σ ε} {I P : σ → Prop} {G : σ → ε → Prop} (hI : ∀ s, I s → P s)
    (hkeep : ∀ s e t, S.step s e t → I s → G s e → I t) (hguard : ∀ s e t, S.step s e t → I s → P t → G s e) :
    ∀ {s tr}, S.Run s tr → I s → ((∀ x ∈ tr, P x.2) ↔ Along (fun s e _ => G s e) s tr)
  | _, [], _, _ => by simp
  | s, (e, t) :: tr, hr, hs => by
    constructor
    · intro h
      have hG : G s e := hguard s e t hr.1 hs (h (e, t) (by simp))
      have ht : I t := hkeep s e t hr.1 hs hG
      exact ⟨hG, (System.Run.forall_iff_guarded hI hkeep hguard hr.2 ht).1 fun x hx => h x (by simp [hx])⟩
    · exact fun hG x hx => hI _ (System.Run.invariant_of_guarded hkeep hr hs hG x hx)

/-- When a step keeps a property exactly if it is guarded, a run keeps it
throughout exactly if every one of its steps is guarded. -/
theorem System.Run.invariant_iff_guarded {S : System σ ε} {I : σ → Prop} {G : σ → ε → Prop}
    (hstep : ∀ s e t, S.step s e t → I s → (I t ↔ G s e)) {s tr} (hr : S.Run s tr) (hI : I s) :
    (∀ x ∈ tr, I x.2) ↔ Along (fun s e _ => G s e) s tr :=
  System.Run.forall_iff_guarded (fun _ h => h) (fun s e t hs hI => (hstep s e t hs hI).2)
    (fun s e t hs hI => (hstep s e t hs hI).1) hr hI

/-! ## Counting -/

/-- How many steps of a run are of a kind. -/
def countAlong (P : σ → ε → σ → Bool) : σ → List (ε × σ) → Nat
  | _, [] => 0
  | s, (e, t) :: tr => (if P s e t then 1 else 0) + countAlong P t tr

/-- A step that needs a mark absent and leaves it happens once, and once more
for each step that may take the mark away. -/
theorem System.Run.countAlong_le {S : System σ ε} {P F : σ → ε → σ → Bool} {m : σ → Bool}
    (hmarks : ∀ s e t, S.step s e t → P s e t = true → m s = false ∧ m t = true)
    (hkeeps : ∀ s e t, S.step s e t → F s e t = false → m s = true → m t = true) :
    ∀ {s tr}, S.Run s tr → countAlong P s tr ≤ countAlong F s tr + (if m s then 0 else 1)
  | _, [], _ => by simp [countAlong]
  | s, (e, t) :: tr, hr => by
    have ih := System.Run.countAlong_le hmarks hkeeps hr.2
    have hm := hmarks s e t hr.1
    have hk := hkeeps s e t hr.1
    unfold countAlong
    cases hP : P s e t with
    | true =>
      obtain ⟨hs, ht⟩ := hm hP
      simp only [hs, ht, ite_true, Bool.false_eq_true, if_false] at ih ⊢
      omega
    | false =>
      cases hF : F s e t with
      | true =>
        have hle : (if m t then 0 else 1) ≤ 1 := by split <;> omega
        simp only [Bool.false_eq_true, if_false, ite_true]
        omega
      | false =>
        cases hs : m s with
        | true =>
          have ht := hk hF hs
          simp only [ht, Bool.false_eq_true, if_false, ite_true] at ih ⊢
          omega
        | false =>
          have hle : (if m t then 0 else 1) ≤ 1 := by split <;> omega
          simp only [Bool.false_eq_true, if_false]
          omega

/-! ## Versions -/

section Versions

variable {V : Type} [Preorder V] {S : System σ ε} {v : σ → V}

theorem System.Run.le_last (hle : ∀ s e t, S.step s e t → v s ≤ v t) :
    ∀ {s tr}, S.Run s tr → v s ≤ v (last s tr)
  | _, [], _ => le_refl _
  | s, (e, t) :: _, hr => le_trans (hle s e t hr.1) (System.Run.le_last hle hr.2)

/-- If the version at the end is not past the one at the start, no step of the
run raised it. -/
theorem System.Run.along_not_of_version {P : σ → ε → σ → Prop} (hle : ∀ s e t, S.step s e t → v s ≤ v t)
    (hlt : ∀ s e t, S.step s e t → P s e t → v s < v t) :
    ∀ {s tr}, S.Run s tr → ¬ v s < v (last s tr) → Along (fun s e t => ¬ P s e t) s tr
  | _, [], _, _ => trivial
  | s, (e, t) :: tr, hr, hv => by
    have hlast : v t ≤ v (last t tr) := System.Run.le_last hle hr.2
    refine ⟨fun hP => hv (lt_of_lt_of_le (hlt s e t hr.1 hP) hlast), ?_⟩
    refine System.Run.along_not_of_version hle hlt hr.2 fun hvt => hv ?_
    exact lt_of_le_of_lt (hle s e t hr.1) hvt

end Versions

end Transition
