/-
Which prompt items a model's input budget has room for: `services/prompt_budget.py`.

Mandatory items are ranked before optional ones, then come the lanes in their
order, then the higher priorities. One pass takes each item that fits in what
is left, and fails at a mandatory item that does not: then the mandatory items
alone are too much (`allocateBudget_error_iff`).

A block's estimate is a count of tokens. What a block says of itself besides
is a mapping of the caller's, `M`.
-/
import Mathlib.Algebra.BigOperators.Group.List.Basic
import Mathlib.Algebra.Ring.Nat
import Mathlib.Data.List.Sort
import Mathlib.Data.Prod.Lex
import Nexus.Primitives
import Nexus.Lib.ExceptFacts

namespace Nexus.Prompts
open ExceptFacts

inductive BudgetLane
  | system
  | scope
  | artifactContext
  | stateSnapshot
  | attachedContext
  | retrievedEvidence
  | webEvidence
  | memory
  | pointerRefs
  | recentHistory
  | currentUser
  deriving DecidableEq, Repr

def laneOrder : List BudgetLane :=
  [.system, .scope, .artifactContext, .stateSnapshot, .attachedContext, .retrievedEvidence, .webEvidence, .memory,
    .pointerRefs, .recentHistory, .currentUser]

inductive DropReason
  | budgetExceeded
  deriving DecidableEq, Repr

inductive PromptRole
  | system
  | user
  | assistant
  deriving DecidableEq, Repr

structure ContextBudgetError where
  message : String
  lane : Option BudgetLane
  itemKey : Option Text
  requestedTokens : Int
  remainingTokens : Int
  deriving DecidableEq, Repr

inductive ReasoningLevel
  | none
  | minimal
  | low
  | medium
  | high
  | xhigh
  | max
  deriving DecidableEq, Repr

/-- A budget that `build_prompt_budget` has let through. -/
structure PromptBudget where
  maxContextTokens : Int
  reservedOutputTokens : Int
  reservedReasoningTokens : Int
  inputBudgetTokens : Int
  inputBudgetTokens_pos : 0 < inputBudgetTokens
  deriving Repr

structure PromptBlock (M : Type) where
  id : Text
  role : PromptRole
  lane : BudgetLane
  text : Text
  estimatedTokens : Nat
  sourceRefs : List M
  cachePolicy : Option M
  privacyScope : Text
  requiredProviderCapability : Option Text
  deriving DecidableEq, Repr

structure BudgetItem (M : Type) where
  key : Text
  lane : BudgetLane
  blocks : List (PromptBlock M)
  mandatory : Bool
  priority : Int
  metadata : M
  deriving DecidableEq, Repr

structure IncludedBudgetItem (M : Type) where
  key : Text
  lane : BudgetLane
  blocks : List (PromptBlock M)
  estimatedTokens : Nat
  metadata : M
  deriving DecidableEq, Repr

structure DroppedBudgetItem (M : Type) where
  key : Text
  lane : BudgetLane
  blocks : List (PromptBlock M)
  reason : DropReason
  estimatedTokens : Nat
  metadata : M
  deriving DecidableEq, Repr

structure LaneCounts where
  includedTokens : Nat
  droppedTokens : Nat
  includedCount : Nat
  droppedCount : Nat
  deriving DecidableEq, Repr

structure Breakdown where
  lanes : BudgetLane → LaneCounts
  remainingTokens : Int
  inputBudgetTokens : Int
  reservedOutputTokens : Int
  reservedReasoningTokens : Int

structure BudgetSelection (M : Type) where
  budget : PromptBudget
  included : List (IncludedBudgetItem M)
  dropped : List (DroppedBudgetItem M)
  estimatedInputTokens : Int
  breakdown : Breakdown

variable {M : Type}

def estimateBlockTokens (blocks : List (PromptBlock M)) : Nat := (blocks.map PromptBlock.estimatedTokens).sum

def BudgetItem.tokens (item : BudgetItem M) : Nat := estimateBlockTokens item.blocks

def estimateReasoningReserve (reasoning : ReasoningLevel) (reasoningReserveTokens : Int) : Int :=
  if reasoning = .none then 0 else max 0 reasoningReserveTokens

def buildPromptBudget (maxContextTokens maxOutputTokens : Int) (reasoning : ReasoningLevel)
    (reasoningReserveTokens : Int) : Except ContextBudgetError PromptBudget :=
  let reservedOutputTokens := max 0 maxOutputTokens
  let reservedReasoningTokens := estimateReasoningReserve reasoning reasoningReserveTokens
  if h : 0 < maxContextTokens - reservedOutputTokens - reservedReasoningTokens then
    .ok ⟨maxContextTokens, reservedOutputTokens, reservedReasoningTokens, _, h⟩
  else .error
    { message := "Model context window is exhausted by output and reasoning reserves"
      lane := .none
      itemKey := .none
      requestedTokens := reservedOutputTokens + reservedReasoningTokens
      remainingTokens := maxContextTokens }

/-! ## The pass -/

/-- The items of one lane that are mandatory, or that are not: `sorted` by
falling priority. -/
def laneItems (items : List (BudgetItem M)) (mandatory : Bool) (lane : BudgetLane) : List (BudgetItem M) :=
  (items.filter fun item => item.lane == lane && item.mandatory == mandatory).mergeSort
    fun a b => decide (b.priority ≤ a.priority)

def orderedItems (items : List (BudgetItem M)) : List (BudgetItem M) :=
  [true, false].flatMap fun mandatory => laneOrder.flatMap fun lane => laneItems items mandatory lane

def BudgetItem.toIncluded (item : BudgetItem M) : IncludedBudgetItem M :=
  ⟨item.key, item.lane, item.blocks, item.tokens, item.metadata⟩

def BudgetItem.toDropped (item : BudgetItem M) : DroppedBudgetItem M :=
  ⟨item.key, item.lane, item.blocks, .budgetExceeded, item.tokens, item.metadata⟩

/-- The locals of `allocate_budget`. -/
structure Allocation (M : Type) where
  included : List (IncludedBudgetItem M)
  dropped : List (DroppedBudgetItem M)
  remaining : Int
  lanes : BudgetLane → LaneCounts

def bump (lanes : BudgetLane → LaneCounts) (lane : BudgetLane) (f : LaneCounts → LaneCounts) : BudgetLane → LaneCounts :=
  fun l => if l = lane then f (lanes l) else lanes l

def allocateItem (s : Allocation M) (item : BudgetItem M) : Except ContextBudgetError (Allocation M) :=
  if item.blocks.isEmpty then .ok s
  else if (item.tokens : Int) ≤ s.remaining then
    .ok { s with
      included := s.included ++ [item.toIncluded]
      remaining := s.remaining - item.tokens
      lanes := bump s.lanes item.lane fun c =>
        { c with includedTokens := c.includedTokens + item.tokens, includedCount := c.includedCount + 1 } }
  else if item.mandatory then
    .error
      { message := "Mandatory prompt context cannot fit the model input budget"
        lane := .some item.lane
        itemKey := .some item.key
        requestedTokens := item.tokens
        remainingTokens := s.remaining }
  else
    .ok { s with
      dropped := s.dropped ++ [item.toDropped]
      lanes := bump s.lanes item.lane fun c =>
        { c with droppedTokens := c.droppedTokens + item.tokens, droppedCount := c.droppedCount + 1 } }

def allocation (budget : PromptBudget) : Allocation M :=
  ⟨[], [], budget.inputBudgetTokens, fun _ => ⟨0, 0, 0, 0⟩⟩

def allocateBudget (items : List (BudgetItem M)) (budget : PromptBudget) :
    Except ContextBudgetError (BudgetSelection M) := do
  let s ← (orderedItems items).foldlM allocateItem (allocation budget)
  .ok
    { budget
      included := s.included
      dropped := s.dropped
      estimatedInputTokens := budget.inputBudgetTokens - s.remaining
      breakdown :=
        { lanes := s.lanes
          remainingTokens := s.remaining
          inputBudgetTokens := budget.inputBudgetTokens
          reservedOutputTokens := budget.reservedOutputTokens
          reservedReasoningTokens := budget.reservedReasoningTokens } }

/-! ## What a selection should be -/

/-- The rank of an item: the smaller comes first. -/
def BudgetItem.rank (item : BudgetItem M) : ℕ ×ₗ ℕ ×ₗ ℤ :=
  toLex (if item.mandatory then 0 else 1, toLex (laneOrder.idxOf item.lane, -item.priority))

def BudgetItem.filled (item : BudgetItem M) : Bool := !item.blocks.isEmpty

def totalTokens (items : List (BudgetItem M)) : Nat := (items.map BudgetItem.tokens).sum

/-- The items a list of decisions takes. -/
def taken (decided : List (BudgetItem M × Bool)) : List (BudgetItem M) := (decided.filter fun d => d.2).map Prod.fst

def passedOver (decided : List (BudgetItem M × Bool)) : List (BudgetItem M) :=
  (decided.filter fun d => !d.2).map Prod.fst

/-- What the decisions come to in one lane. -/
def laneCounts (decided : List (BudgetItem M × Bool)) (lane : BudgetLane) : LaneCounts :=
  let takenHere := (taken decided).filter fun item => item.lane = lane
  let passedOverHere := (passedOver decided).filter fun item => item.lane = lane
  ⟨totalTokens takenHere, totalTokens passedOverHere, takenHere.length, passedOverHere.length⟩

/-- Every item with blocks was decided on in the order of its rank, and taken
exactly if it fitted in what the items before it had left. -/
structure Decides (items : List (BudgetItem M)) (budget : Int) (decided : List (BudgetItem M × Bool)) : Prop where
  each : (decided.map Prod.fst).Perm (items.filter BudgetItem.filled)
  ranked : (decided.map Prod.fst).Pairwise fun a b => a.rank ≤ b.rank
  stable : ∀ r, ((decided.map Prod.fst).filter fun item => item.rank = r) =
    (items.filter BudgetItem.filled).filter fun item => item.rank = r
  mandatory : ∀ d ∈ decided, d.1.mandatory = true → d.2 = true
  fits : ∀ before item took after, decided = before ++ (item, took) :: after →
    (took = true ↔ (item.tokens : Int) ≤ budget - totalTokens (taken before))
  within : (totalTokens (taken decided) : Int) ≤ budget

/-- The selection says what was decided. -/
structure Reports (decided : List (BudgetItem M × Bool)) (budget : PromptBudget) (sel : BudgetSelection M) : Prop where
  budget_eq : sel.budget = budget
  included : sel.included = (taken decided).map BudgetItem.toIncluded
  dropped : sel.dropped = (passedOver decided).map BudgetItem.toDropped
  tokens : sel.estimatedInputTokens = totalTokens (taken decided)
  remaining : sel.breakdown.remainingTokens = budget.inputBudgetTokens - totalTokens (taken decided)
  lanes : ∀ lane, sel.breakdown.lanes lane = laneCounts decided lane

/-! ## The decisions of a pass -/

/-- What a pass that never fails decides with `left` tokens to give. -/
def decisions : Int → List (BudgetItem M) → List (BudgetItem M × Bool)
  | _, [] => []
  | left, item :: items =>
    if item.blocks.isEmpty then decisions left items
    else if (item.tokens : Int) ≤ left then (item, true) :: decisions (left - item.tokens) items
    else (item, false) :: decisions left items

section Decisions

variable {items : List (BudgetItem M)} {item : BudgetItem M} {left : Int} {decided : List (BudgetItem M × Bool)}

@[simp] theorem totalTokens_nil : totalTokens ([] : List (BudgetItem M)) = 0 := rfl

@[simp] theorem totalTokens_cons : totalTokens (item :: items) = item.tokens + totalTokens items := by
  simp [totalTokens]

theorem totalTokens_perm {items' : List (BudgetItem M)} (h : items.Perm items') : totalTokens items = totalTokens items' :=
  (h.map BudgetItem.tokens).sum_eq

@[simp] theorem taken_nil : taken ([] : List (BudgetItem M × Bool)) = [] := rfl

@[simp] theorem taken_true : taken ((item, true) :: decided) = item :: taken decided := rfl

@[simp] theorem taken_false : taken ((item, false) :: decided) = taken decided := rfl

@[simp] theorem passedOver_true : passedOver ((item, true) :: decided) = passedOver decided := rfl

@[simp] theorem passedOver_false : passedOver ((item, false) :: decided) = item :: passedOver decided := rfl

theorem tokens_of_empty (h : item.blocks.isEmpty = true) : item.tokens = 0 := by
  rw [BudgetItem.tokens, List.isEmpty_iff.1 h]
  rfl

theorem decisions_empty (h : item.blocks.isEmpty = true) : decisions left (item :: items) = decisions left items := by
  rw [decisions, if_pos h]

theorem decisions_fit (h : ¬ item.blocks.isEmpty = true) (hfits : (item.tokens : Int) ≤ left) :
    decisions left (item :: items) = (item, true) :: decisions (left - item.tokens) items := by
  rw [decisions, if_neg h, if_pos hfits]

theorem decisions_over (h : ¬ item.blocks.isEmpty = true) (hfits : ¬ (item.tokens : Int) ≤ left) :
    decisions left (item :: items) = (item, false) :: decisions left items := by
  rw [decisions, if_neg h, if_neg hfits]

theorem map_fst_decisions : ∀ (items : List (BudgetItem M)) (left : Int),
    (decisions left items).map Prod.fst = items.filter BudgetItem.filled
  | [], _ => rfl
  | item :: items, left => by
    by_cases hempty : item.blocks.isEmpty = true
    · simp [decisions_empty hempty, hempty, BudgetItem.filled, map_fst_decisions items]
    · by_cases hfits : (item.tokens : Int) ≤ left
      · simp [decisions_fit hempty hfits, hempty, BudgetItem.filled, map_fst_decisions items]
      · simp [decisions_over hempty hfits, hempty, BudgetItem.filled, map_fst_decisions items]

theorem decisions_fits : ∀ {items : List (BudgetItem M)} {left : Int} {before : List (BudgetItem M × Bool)} {took : Bool}
    {after}, decisions left items = before ++ (item, took) :: after →
    (took = true ↔ (item.tokens : Int) ≤ left - totalTokens (taken before))
  | [], _, before, _, _, h => by simp [decisions] at h
  | i :: items, left, before, took, after, h => by
    by_cases hempty : i.blocks.isEmpty = true
    · rw [decisions_empty hempty] at h
      exact decisions_fits h
    · by_cases hfits : (i.tokens : Int) ≤ left
      · rw [decisions_fit hempty hfits] at h
        cases before with
        | nil =>
          obtain ⟨rfl, rfl⟩ := Prod.mk.inj (List.cons.inj h).1
          simpa using hfits
        | cons d before =>
          obtain ⟨rfl, hrest⟩ := List.cons.inj h
          rw [decisions_fits hrest, taken_true, totalTokens_cons]
          omega
      · rw [decisions_over hempty hfits] at h
        cases before with
        | nil =>
          obtain ⟨rfl, rfl⟩ := Prod.mk.inj (List.cons.inj h).1
          simpa using hfits
        | cons d before =>
          obtain ⟨rfl, hrest⟩ := List.cons.inj h
          rw [decisions_fits hrest, taken_false]

theorem decisions_within : ∀ (items : List (BudgetItem M)) {left : Int}, 0 ≤ left →
    (totalTokens (taken (decisions left items)) : Int) ≤ left
  | [], _, h => by simpa [decisions] using h
  | item :: items, left, h => by
    by_cases hempty : item.blocks.isEmpty = true
    · rw [decisions_empty hempty]
      exact decisions_within items h
    · by_cases hfits : (item.tokens : Int) ≤ left
      · have hrest := decisions_within items (show 0 ≤ left - (item.tokens : Int) by omega)
        rw [decisions_fit hempty hfits, taken_true, totalTokens_cons]
        omega
      · rw [decisions_over hempty hfits, taken_false]
        exact decisions_within items h

/-! ## The pass decides -/

/-- `t` is `s` after the decisions. -/
structure Decided (decided : List (BudgetItem M × Bool)) (s t : Allocation M) : Prop where
  included : t.included = s.included ++ (taken decided).map BudgetItem.toIncluded
  dropped : t.dropped = s.dropped ++ (passedOver decided).map BudgetItem.toDropped
  remaining : t.remaining = s.remaining - totalTokens (taken decided)
  lanes : ∀ lane, t.lanes lane =
    ⟨(s.lanes lane).includedTokens + (laneCounts decided lane).includedTokens,
      (s.lanes lane).droppedTokens + (laneCounts decided lane).droppedTokens,
      (s.lanes lane).includedCount + (laneCounts decided lane).includedCount,
      (s.lanes lane).droppedCount + (laneCounts decided lane).droppedCount⟩

theorem Decided.refl (s : Allocation M) : Decided [] s s where
  included := by simp
  dropped := by simp [passedOver]
  remaining := by simp
  lanes lane := by simp [laneCounts, passedOver]

theorem Decided.take {s t : Allocation M} {lanes : BudgetLane → LaneCounts}
    (hlanes : lanes = bump s.lanes item.lane fun c =>
      { c with includedTokens := c.includedTokens + item.tokens, includedCount := c.includedCount + 1 })
    (h : Decided decided ⟨s.included ++ [item.toIncluded], s.dropped, s.remaining - item.tokens, lanes⟩ t) :
    Decided ((item, true) :: decided) s t where
  included := by simp [h.included]
  dropped := h.dropped
  remaining := by
    have hremaining := h.remaining
    dsimp only at hremaining
    rw [hremaining, taken_true, totalTokens_cons]
    omega
  lanes lane := by
    rw [h.lanes lane, hlanes]
    by_cases hlane : item.lane = lane
    · simp [laneCounts, bump, hlane]
      omega
    · simp [laneCounts, bump, hlane, Ne.symm hlane]

theorem Decided.pass {s t : Allocation M} {lanes : BudgetLane → LaneCounts}
    (hlanes : lanes = bump s.lanes item.lane fun c =>
      { c with droppedTokens := c.droppedTokens + item.tokens, droppedCount := c.droppedCount + 1 })
    (h : Decided decided ⟨s.included, s.dropped ++ [item.toDropped], s.remaining, lanes⟩ t) :
    Decided ((item, false) :: decided) s t where
  included := h.included
  dropped := by simp [h.dropped]
  remaining := h.remaining
  lanes lane := by
    rw [h.lanes lane, hlanes]
    by_cases hlane : item.lane = lane
    · simp [laneCounts, bump, hlane]
      omega
    · simp [laneCounts, bump, hlane, Ne.symm hlane]

theorem foldlM_allocateItem_ok : ∀ {items : List (BudgetItem M)} {s t : Allocation M}, items.foldlM allocateItem s = .ok t →
    Decided (decisions s.remaining items) s t ∧
      ∀ d ∈ decisions s.remaining items, d.1.mandatory = true → d.2 = true
  | [], s, t, h => by
    obtain rfl : s = t := Except.ok.inj h
    exact ⟨Decided.refl s, by simp [decisions]⟩
  | item :: items, s, t, h => by
    rw [List.foldlM_cons] at h
    obtain ⟨u, hu, h⟩ := bind_eq_ok.1 h
    obtain ⟨hdecided, htaken⟩ := foldlM_allocateItem_ok h
    unfold allocateItem at hu
    unfold decisions
    by_cases hempty : item.blocks.isEmpty = true
    · rw [if_pos hempty] at hu ⊢
      obtain rfl := Except.ok.inj hu
      exact ⟨hdecided, htaken⟩
    · rw [if_neg hempty] at hu ⊢
      by_cases hfits : (item.tokens : Int) ≤ s.remaining
      · rw [if_pos hfits] at hu ⊢
        obtain rfl := Except.ok.inj hu
        exact ⟨.take rfl hdecided, List.forall_mem_cons.2 ⟨fun _ => rfl, htaken⟩⟩
      · rw [if_neg hfits] at hu ⊢
        by_cases hmandatory : item.mandatory = true
        · rw [if_pos hmandatory] at hu
          cases hu
        · rw [if_neg hmandatory] at hu
          obtain rfl := Except.ok.inj hu
          exact ⟨.pass rfl hdecided, List.forall_mem_cons.2 ⟨fun h => absurd h hmandatory, htaken⟩⟩

theorem foldlM_allocateItem_error : ∀ (items : List (BudgetItem M)) (s : Allocation M),
    (∃ e, items.foldlM allocateItem s = .error e) ↔
      ∃ d ∈ decisions s.remaining items, d.1.mandatory = true ∧ d.2 = false
  | [], s => by simp [decisions, pure, Except.pure]
  | item :: items, s => by
    rw [List.foldlM_cons]
    unfold allocateItem decisions
    by_cases hempty : item.blocks.isEmpty = true
    · rw [if_pos hempty, if_pos hempty]
      exact foldlM_allocateItem_error items s
    · rw [if_neg hempty, if_neg hempty]
      by_cases hfits : (item.tokens : Int) ≤ s.remaining
      · rw [if_pos hfits, if_pos hfits, List.exists_mem_cons_iff]
        exact (foldlM_allocateItem_error items _).trans (by simp)
      · rw [if_neg hfits, if_neg hfits, List.exists_mem_cons_iff]
        by_cases hmandatory : item.mandatory = true
        · rw [if_pos hmandatory]
          exact ⟨fun _ => .inl ⟨hmandatory, rfl⟩, fun _ => ⟨_, rfl⟩⟩
        · rw [if_neg hmandatory]
          exact (foldlM_allocateItem_error items _).trans (by simp [hmandatory])

theorem decisions_all : ∀ (items : List (BudgetItem M)) {left : Int}, 0 ≤ left →
    ((∃ d ∈ decisions left items, d.2 = false) ↔ left < totalTokens items)
  | [], left, h => by
    simp [decisions]
    omega
  | item :: items, left, h => by
    rw [totalTokens_cons]
    by_cases hempty : item.blocks.isEmpty = true
    · rw [decisions_empty hempty, decisions_all items h, tokens_of_empty hempty]
      omega
    · by_cases hfits : (item.tokens : Int) ≤ left
      · rw [decisions_fit hempty hfits, List.exists_mem_cons_iff, decisions_all items (by omega)]
        simp only [Bool.true_eq_false, false_or]
        omega
      · rw [decisions_over hempty hfits, List.exists_mem_cons_iff]
        simp only [true_or, true_iff]
        omega

theorem decisions_append : ∀ (items items' : List (BudgetItem M)) (left : Int),
    decisions left (items ++ items') =
      decisions left items ++ decisions (left - totalTokens (taken (decisions left items))) items'
  | [], items', left => by simp [decisions]
  | item :: items, items', left => by
    rw [List.cons_append]
    by_cases hempty : item.blocks.isEmpty = true
    · rw [decisions_empty hempty, decisions_empty hempty]
      exact decisions_append items items' left
    · by_cases hfits : (item.tokens : Int) ≤ left
      · rw [decisions_fit hempty hfits, decisions_fit hempty hfits, decisions_append items items', List.cons_append,
          taken_true, totalTokens_cons]
        congr 3
        omega
      · rw [decisions_over hempty hfits, decisions_over hempty hfits, decisions_append items items', List.cons_append,
          taken_false]

/-! ## The order of the pass -/

theorem mem_laneItems {mandatory : Bool} {lane : BudgetLane} :
    item ∈ laneItems items mandatory lane ↔ item ∈ items ∧ item.lane = lane ∧ item.mandatory = mandatory := by
  simp [laneItems, List.mem_mergeSort, List.mem_filter]

theorem mem_laneOrder (lane : BudgetLane) : lane ∈ laneOrder := by cases lane <;> decide

theorem flatMap_laneItems_perm (items : List (BudgetItem M)) (mandatory : Bool) : ∀ (lanes : List BudgetLane), lanes.Nodup →
    (lanes.flatMap fun lane => laneItems items mandatory lane).Perm
      (items.filter fun item => decide (item.lane ∈ lanes) && item.mandatory == mandatory)
  | [], _ => by simp
  | lane :: lanes, hnodup => by
    obtain ⟨hlane, hnodup⟩ := List.nodup_cons.1 hnodup
    rw [List.flatMap_cons]
    have hrest := flatMap_laneItems_perm items mandatory lanes hnodup
    refine ((List.mergeSort_perm _ _).append hrest).trans ?_
    let here := items.filter fun item => decide (item.lane ∈ lane :: lanes) && item.mandatory == mandatory
    have hsplit := List.filter_append_perm (fun item : BudgetItem M => item.lane == lane) here
    have hthis : here.filter (fun item => item.lane == lane) =
        items.filter fun item => item.lane == lane && item.mandatory == mandatory := by
      rw [List.filter_filter]
      refine List.filter_congr fun item _ => ?_
      by_cases hitem : item.lane = lane
      · simp [hitem]
      · simp [beq_eq_false_iff_ne.2 hitem]
    have hothers : here.filter (fun item => !(item.lane == lane)) =
        items.filter fun item => decide (item.lane ∈ lanes) && item.mandatory == mandatory := by
      rw [List.filter_filter]
      refine List.filter_congr fun item _ => ?_
      by_cases hitem : item.lane = lane
      · simp [hitem, hlane]
      · simp [hitem]
    rw [hthis, hothers] at hsplit
    exact hsplit

/-- The mandatory items, or the others, in the order of the pass. -/
def classItems (items : List (BudgetItem M)) (mandatory : Bool) : List (BudgetItem M) :=
  laneOrder.flatMap fun lane => laneItems items mandatory lane

theorem orderedItems_eq (items : List (BudgetItem M)) :
    orderedItems items = classItems items true ++ classItems items false := by
  simp [orderedItems, classItems]

theorem classItems_perm (items : List (BudgetItem M)) (mandatory : Bool) :
    (classItems items mandatory).Perm (items.filter fun item => item.mandatory == mandatory) := by
  have h := flatMap_laneItems_perm items mandatory laneOrder (by decide)
  simpa [mem_laneOrder, classItems] using h

theorem orderedItems_perm (items : List (BudgetItem M)) : (orderedItems items).Perm items := by
  rw [orderedItems_eq]
  refine ((classItems_perm items true).append (classItems_perm items false)).trans ?_
  have h := List.filter_append_perm (fun item : BudgetItem M => item.mandatory == true) items
  simpa using h

theorem mandatory_of_mem_classItems {mandatory : Bool} (h : item ∈ classItems items mandatory) :
    item.mandatory = mandatory := by
  have hmem := (classItems_perm items mandatory).mem_iff.1 h
  simpa using (List.mem_filter.1 hmem).2

theorem rank_le_iff {a b : BudgetItem M} (hm : a.mandatory = b.mandatory) (hl : a.lane = b.lane) :
    a.rank ≤ b.rank ↔ b.priority ≤ a.priority := by
  simp [BudgetItem.rank, Prod.Lex.le_iff, hm, hl]

theorem pairwise_classItems (items : List (BudgetItem M)) (mandatory : Bool) :
    (classItems items mandatory).Pairwise fun a b => a.rank ≤ b.rank := by
  refine List.pairwise_flatMap.2 ⟨fun lane _ => ?_, ?_⟩
  · have hsorted : (laneItems items mandatory lane).Pairwise fun a b => decide (b.priority ≤ a.priority) = true :=
      List.pairwise_mergeSort (by simp; omega) (by simp; omega) _
    refine hsorted.imp_of_mem fun {a b} ha hb hab => ?_
    obtain ⟨-, hla, hma⟩ := mem_laneItems.1 ha
    obtain ⟨-, hlb, hmb⟩ := mem_laneItems.1 hb
    exact (rank_le_iff (hma.trans hmb.symm) (hla.trans hlb.symm)).2 (of_decide_eq_true hab)
  · have hlanes : laneOrder.Pairwise fun l l' => laneOrder.idxOf l < laneOrder.idxOf l' := by decide
    refine hlanes.imp fun {l l'} hlt a ha b hb => ?_
    obtain ⟨-, rfl, rfl⟩ := mem_laneItems.1 ha
    obtain ⟨-, rfl, hmb⟩ := mem_laneItems.1 hb
    simp [BudgetItem.rank, Prod.Lex.le_iff, hmb, hlt]

theorem pairwise_orderedItems (items : List (BudgetItem M)) : (orderedItems items).Pairwise fun a b => a.rank ≤ b.rank := by
  rw [orderedItems_eq]
  refine List.pairwise_append.2 ⟨pairwise_classItems items true, pairwise_classItems items false, fun a ha b hb => ?_⟩
  simp [BudgetItem.rank, Prod.Lex.le_iff, mandatory_of_mem_classItems ha, mandatory_of_mem_classItems hb]

theorem rank_eq_iff {a b : BudgetItem M} : a.rank = b.rank ↔
    a.mandatory = b.mandatory ∧ a.lane = b.lane ∧ a.priority = b.priority := by
  have hlane : laneOrder.idxOf a.lane = laneOrder.idxOf b.lane ↔ a.lane = b.lane :=
    ⟨fun h => (List.idxOf_inj (mem_laneOrder a.lane)).1 h, fun h => by rw [h]⟩
  simp only [BudgetItem.rank, EmbeddingLike.apply_eq_iff_eq, Prod.mk.injEq, hlane, neg_inj]
  cases a.mandatory <;> cases b.mandatory <;> simp

theorem filter_rank_orderedItems (items : List (BudgetItem M)) (r) :
    (orderedItems items).filter (fun item => item.rank = r) = items.filter fun item => item.rank = r := by
  symm
  have hsub : (items.filter fun item => item.rank = r).Sublist (orderedItems items) := by
    cases hc : items.filter fun item => item.rank = r with
    | nil => exact List.nil_sublist _
    | cons a rest =>
      rw [← hc]
      have ha : a.rank = r := by
        have hmem : a ∈ items.filter fun item => item.rank = r := hc ▸ List.mem_cons_self
        simpa using (List.mem_filter.1 hmem).2
      have hclass : (items.filter fun item => item.rank = r).Sublist (laneItems items a.mandatory a.lane) := by
        refine List.sublist_mergeSort (by simp; omega) (by simp; omega) ?_ ?_
        · refine List.pairwise_of_forall_mem_list fun x hx y hy => ?_
          have hxy : x.rank = y.rank := by
            rw [of_decide_eq_true (List.mem_filter.1 hx).2, of_decide_eq_true (List.mem_filter.1 hy).2]
          simp [(rank_eq_iff.1 hxy).2.2]
        · have hnarrow : (items.filter fun item => item.rank = r) =
              (items.filter fun item => item.lane == a.lane && item.mandatory == a.mandatory).filter
                fun item => item.rank = r := by
            rw [List.filter_filter]
            refine List.filter_congr fun item _ => ?_
            by_cases hitem : item.rank = r
            · obtain ⟨hm, hl, -⟩ := rank_eq_iff.1 (hitem.trans ha.symm)
              simp [hitem, hm, hl]
            · simp [hitem]
          rw [hnarrow]
          exact List.filter_sublist
      refine hclass.trans ?_
      have hlane : (laneItems items a.mandatory a.lane).Sublist (classItems items a.mandatory) :=
        List.sublist_flatten_of_mem (List.mem_map_of_mem (mem_laneOrder a.lane))
      rw [orderedItems_eq]
      cases hm : a.mandatory with
      | true =>
        rw [hm] at hlane
        exact hlane.trans (List.sublist_append_left _ _)
      | false =>
        rw [hm] at hlane
        exact hlane.trans (List.sublist_append_right _ _)
  have hfilter := hsub.filter fun item : BudgetItem M => decide (item.rank = r)
  rw [List.filter_filter] at hfilter
  simp only [Bool.and_self] at hfilter
  exact hfilter.eq_of_length ((orderedItems_perm items).filter _).length_eq.symm

end Decisions

/-! ## Allocation -/

/-- The tokens of the mandatory items. -/
def mandatoryTokens (items : List (BudgetItem M)) : Nat := totalTokens (items.filter fun item => item.mandatory == true)

section Allocation

variable {items : List (BudgetItem M)} {budget : PromptBudget}

/-- Mandatory items come first, so one of them is passed over exactly if they
are too much by themselves. -/
theorem passes_mandatory_iff (items : List (BudgetItem M)) (budget : PromptBudget) :
    (∃ d ∈ decisions budget.inputBudgetTokens (orderedItems items), d.1.mandatory = true ∧ d.2 = false) ↔
      budget.inputBudgetTokens < mandatoryTokens items := by
  have hall := decisions_all (classItems items true) budget.inputBudgetTokens_pos.le
  rw [totalTokens_perm (classItems_perm items true)] at hall
  rw [mandatoryTokens, ← hall, orderedItems_eq, decisions_append]
  constructor
  · rintro ⟨d, hd, hmandatory, hpassed⟩
    rcases List.mem_append.1 hd with hd | hd
    · exact ⟨d, hd, hpassed⟩
    · have hitem := List.mem_map_of_mem (f := Prod.fst) hd
      rw [map_fst_decisions] at hitem
      rw [mandatory_of_mem_classItems (List.mem_filter.1 hitem).1] at hmandatory
      cases hmandatory
  · rintro ⟨d, hd, hpassed⟩
    have hitem := List.mem_map_of_mem (f := Prod.fst) hd
    rw [map_fst_decisions] at hitem
    exact ⟨d, List.mem_append_left _ hd, mandatory_of_mem_classItems (List.mem_filter.1 hitem).1, hpassed⟩

theorem allocateBudget_error_iff (items : List (BudgetItem M)) (budget : PromptBudget) :
    (∃ e, allocateBudget items budget = .error e) ↔ budget.inputBudgetTokens < mandatoryTokens items := by
  rw [← passes_mandatory_iff]
  refine Iff.trans ?_ (foldlM_allocateItem_error (orderedItems items) (allocation budget))
  unfold allocateBudget
  cases (orderedItems items).foldlM allocateItem (allocation budget) with
  | error e => simp [bind, Except.bind]
  | ok s => simp [bind, Except.bind]

theorem decides_decisions (items : List (BudgetItem M)) (budget : PromptBudget)
    (htaken : ∀ d ∈ decisions budget.inputBudgetTokens (orderedItems items), d.1.mandatory = true → d.2 = true) :
    Decides items budget.inputBudgetTokens (decisions budget.inputBudgetTokens (orderedItems items)) where
  each := by
    rw [map_fst_decisions]
    exact (orderedItems_perm items).filter _
  ranked := by
    rw [map_fst_decisions]
    exact (pairwise_orderedItems items).filter _
  stable r := by
    rw [map_fst_decisions, List.filter_filter, List.filter_filter]
    simp only [Bool.and_comm _ (BudgetItem.filled _)]
    rw [← List.filter_filter, ← List.filter_filter, filter_rank_orderedItems]
  mandatory := htaken
  fits _ _ _ _ h := decisions_fits h
  within := decisions_within _ budget.inputBudgetTokens_pos.le

/-- **Allocation fails exactly if the mandatory items alone are too much for the
budget. Otherwise every item with blocks is included or dropped, in the order of
the ranks, and is included exactly if it fits in what those before it left.** -/
theorem allocates (items : List (BudgetItem M)) (budget : PromptBudget) :
    ((∃ e, allocateBudget items budget = .error e) ↔ budget.inputBudgetTokens < mandatoryTokens items) ∧
    ∀ sel, allocateBudget items budget = .ok sel →
      ∃ decided, Decides items budget.inputBudgetTokens decided ∧ Reports decided budget sel := by
  refine ⟨allocateBudget_error_iff items budget, fun sel h => ?_⟩
  unfold allocateBudget at h
  obtain ⟨s, hs, h⟩ := bind_eq_ok.1 h
  obtain ⟨hdecided, htaken⟩ := foldlM_allocateItem_ok hs
  obtain rfl := Except.ok.inj h
  have hremaining : s.remaining = budget.inputBudgetTokens -
      totalTokens (taken (decisions budget.inputBudgetTokens (orderedItems items))) := hdecided.remaining
  refine ⟨_, decides_decisions items budget htaken, ⟨rfl, hdecided.included, hdecided.dropped, ?_, hremaining, ?_⟩⟩
  · dsimp only
    omega
  · intro lane
    have hlane := hdecided.lanes lane
    simp only [allocation, Nat.zero_add] at hlane
    exact hlane

end Allocation

end Nexus.Prompts
