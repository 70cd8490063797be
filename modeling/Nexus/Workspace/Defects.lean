/-
Which actions the workspace's store reduces, and which trip an assertion of its reducer.

Every action leaves an active pane to be seen, so that the store never lacks a primary
pane or a visible one. The assertions that are left are about what was dispatched
(`WorkspaceStoreAction.Reduces`): room for a new pane, a fallback for the last one, and
a closed pane that is known and whose panes are not open again.
-/
import Nexus.Workspace.PaneHistory

namespace Nexus.Workspace

open ExceptFacts Transition

variable {H W M : Type}

section Outcomes

variable {ε α β : Type} {p : Prop}

theorem exists_error_iff {e : ε} (h : ¬ p) : (∃ a : α, Except.error e = .ok a) ↔ p := by
  constructor
  · rintro ⟨a, heq⟩
    cases heq
  · exact fun hp => absurd hp h

theorem exists_ok_iff {a : α} (h : p) : (∃ b, (.ok a : Except ε α) = .ok b) ↔ p :=
  iff_of_true ⟨a, rfl⟩ h

/-- A part whose rest always returns. -/
theorem exists_bind_ok {x : Except ε α} {f : α → Except ε β} (hf : ∀ a, ∃ b, f a = .ok b) :
    (∃ b, (x >>= f) = .ok b) ↔ ∃ a, x = .ok a := by
  cases x with
  | error e => exact exists_error_iff fun h => by obtain ⟨a, heq⟩ := h; cases heq
  | ok a => exact iff_of_true (hf a) ⟨a, rfl⟩

end Outcomes

/-! ## Panes under an active one -/

section

variable {state : WorkspaceState H W} {panes : List (PrimaryPane H W)} {secondaryPanes : List (SecondaryPane W)}
  {paneId active : Uuid} {rules : PaneRules H W M} {metrics : M}

theorem exists_ensured (h : (active, PaneVisibility.visible) ∈ panes.map PrimaryPane.face) :
    ∃ state', ensureActivePaneId (createWorkspaceState panes active secondaryPanes) = .ok state' :=
  ⟨_, ensureActive_of_active (by rwa [faces_createWorkspaceState])⟩

theorem exists_trimmed (h : (active, PaneVisibility.visible) ∈ panes.map PrimaryPane.face) :
    ∃ state', trimAndEnsureActivePaneId (createWorkspaceState panes active secondaryPanes) = .ok state' :=
  ⟨_, ensureActive_of_active (by rwa [faces_trim, faces_createWorkspaceState])⟩

theorem exists_createPane (pane : PrimaryPane H W) (afterPaneId : Option Uuid) :
    (∃ state', state.createPane rules pane afterPaneId metrics = .ok state') ↔ state.primaryPanes.length < maxPanes := by
  unfold WorkspaceState.createPane
  dsimp only
  split
  next hfull => exact exists_error_iff (Nat.not_lt.2 hfull)
  next hroom =>
    refine ⟨fun _ => Nat.not_le.1 hroom, fun _ => exists_trimmed ?_⟩
    rw [List.map_append, List.map_cons]
    exact List.mem_append_right _ List.mem_cons_self

/-- A close leaves its active pane visible. -/
theorem paneAfterClose_active (closedIdx : Nat) (hne : panes ≠ [])
    (hactive : state.activePrimaryPaneId ≠ paneId → (state.activePrimaryPaneId, PaneVisibility.visible) ∈ panes.map PrimaryPane.face) :
    ((state.paneAfterClose closedIdx panes paneId).1, PaneVisibility.visible) ∈
      (state.paneAfterClose closedIdx panes paneId).2.map PrimaryPane.face := by
  unfold WorkspaceState.paneAfterClose
  split
  next =>
    split
    next replacement hreplacement =>
      obtain ⟨hmem, hvisible⟩ := replacementPane_mem hreplacement
      refine face_mem ?_ hvisible
      rcases hmem with hmem | hmem
      · exact List.mem_of_mem_drop hmem
      · exact List.mem_of_mem_take hmem
    next =>
      split
      next restoredPane hrestored =>
        have hmem : restoredPane ∈ panes := by
          rw [Option.orElse_eq_or, Option.or_eq_some_iff] at hrestored
          rcases hrestored with hget | ⟨-, hhead⟩
          · exact List.mem_of_getElem? hget
          · exact List.mem_of_head? hhead
        refine List.mem_map.2 ⟨_, List.mem_map_of_mem hmem, ?_⟩
        rw [if_pos (beq_self_eq_true _), PrimaryPane.face]
      next hnone =>
        rw [Option.orElse_eq_or, Option.or_eq_none_iff] at hnone
        exact absurd (List.head?_eq_none_iff.1 hnone.2) hne
  next hkeeps =>
    rw [Bool.or_eq_true, not_or, beq_iff_eq] at hkeeps
    exact hactive hkeeps.1

theorem WellFormed.exists_closePane (h : WellFormed state) (fallbackState : Option (WorkspaceState H W)) :
    (∃ state', state.closePane paneId fallbackState = .ok state') ↔
      (fallbackState = .none → state.primaryPanes.map PrimaryPane.id ≠ [paneId]) := by
  unfold WorkspaceState.closePane
  split
  next hfind =>
    refine ⟨fun _ _ heq => ?_, fun _ => ⟨state, rfl⟩⟩
    obtain ⟨pane, hpane, hid⟩ := List.map_eq_singleton_iff.1 heq
    rw [List.findIdx?_eq_none_iff] at hfind
    have hnot := hfind pane (by rw [hpane]; exact List.mem_singleton.2 rfl)
    rw [hid, beq_self_eq_true] at hnot
    cases hnot
  next closedIdx hfind =>
    have hids : (state.primaryPanes.filter fun p => p.id != paneId).isEmpty = true ↔ state.primaryPanes.map PrimaryPane.id = [paneId] := by
      have hmem : paneId ∈ state.primaryPanes.map PrimaryPane.id := by
        obtain ⟨hlt, hid, -⟩ := List.findIdx?_eq_some_iff_getElem.1 hfind
        exact List.mem_map.2 ⟨_, List.getElem_mem hlt, beq_iff_eq.1 hid⟩
      rw [List.isEmpty_iff, List.filter_eq_nil_iff]
      constructor
      · intro hall
        have heq : ∀ id ∈ state.primaryPanes.map PrimaryPane.id, id = paneId := by
          intro id hin
          obtain ⟨pane, hpane, rfl⟩ := List.mem_map.1 hin
          simpa using hall pane hpane
        have hrep := List.eq_replicate_of_mem heq
        have hlen : (state.primaryPanes.map PrimaryPane.id).length ≤ 1 := by
          have hnodup := h.nodup
          rw [hrep] at hnodup
          exact List.nodup_replicate.1 hnodup
        have hpos := List.length_pos_of_mem hmem
        have hone : (state.primaryPanes.map PrimaryPane.id).length = 1 := by omega
        rw [hrep, hone]
        rfl
      · intro heq pane hpane
        have hin := List.mem_map_of_mem (f := PrimaryPane.id) hpane
        rw [heq, List.mem_singleton] at hin
        simp [hin]
    dsimp only
    split
    next hempty =>
      cases fallbackState with
      | none => exact exists_error_iff fun hnot => hnot rfl (hids.1 hempty)
      | some fallback => exact exists_ok_iff fun hnone => absurd hnone (Option.some_ne_none _)
    next hrest =>
      refine ⟨fun _ _ heq => hrest (hids.2 heq), fun _ => exists_ensured (paneAfterClose_active closedIdx ?_ fun hne => ?_)⟩
      · exact fun hnil => hrest (List.isEmpty_iff.2 hnil)
      · obtain ⟨pane, hmem, hid, hvisible⟩ := of_face_mem h.active
        refine hid ▸ face_mem (List.mem_filter.2 ⟨hmem, ?_⟩) hvisible
        rw [hid]
        simpa using hne

end

/-! ## Actions -/

/-- Neither the pane of a snapshot nor its secondary pane is open. -/
def ClosedPaneSnapshot.Gone (snapshot : ClosedPaneSnapshot H W) (state : WorkspaceState H W) : Prop :=
  snapshot.pane.id ∉ state.primaryPanes.map PrimaryPane.id ∧
    ∀ candidate ∈ snapshot.secondaryPane, state.secondaryPane candidate.id = .none ∧
      ∀ pane ∈ state.primaryPanes, pane.attachedSecondaryPaneId ≠ .some candidate.id

/-- What an action has to find for the store to reduce it. -/
def WorkspaceStoreAction.Reduces (state : WorkspaceReducerState H W) : WorkspaceStoreAction H W → Prop
  | .workspace (.createPane _ _) => state.workspace.primaryPanes.length < maxPanes
  | .workspace (.closePane paneId fallbackState) =>
    fallbackState = .none → state.workspace.primaryPanes.map PrimaryPane.id ≠ [paneId]
  | .workspace _ => True
  | .restoreClosedPane paneId => ∃ snapshot, state.recentlyClosedPanes.find? (·.pane.id == paneId) = .some snapshot ∧
    (maxPanes ≤ state.workspace.primaryPanes.length ∨ snapshot.Gone state.workspace)

section

variable {rules : PaneRules H W M} {state : WorkspaceReducerState H W} {metrics : M}

variable (rules) in
theorem exists_restoredSecondaryPane {workspace : WorkspaceState H W} (snapshot : ClosedPaneSnapshot H W) :
    (∃ secondaryPane, restoredSecondaryPane rules workspace snapshot = .ok secondaryPane) ↔
      ∀ candidate ∈ snapshot.secondaryPane, workspace.secondaryPane candidate.id = .none ∧
        ∀ pane ∈ workspace.primaryPanes, pane.attachedSecondaryPaneId ≠ .some candidate.id := by
  unfold restoredSecondaryPane
  cases snapshot.secondaryPane with
  | none => simp
  | some candidate =>
    have hopen : ((workspace.secondaryPane candidate.id).isSome ||
        workspace.primaryPanes.any fun pane => pane.attachedSecondaryPaneId == .some candidate.id) = true ↔
          ¬ (workspace.secondaryPane candidate.id = .none ∧
            ∀ pane ∈ workspace.primaryPanes, pane.attachedSecondaryPaneId ≠ .some candidate.id) := by
      rw [Bool.or_eq_true, Option.isSome_iff_ne_none, List.any_eq_true, not_and_or]
      simp
    simp only [Option.mem_def, Option.some.injEq, forall_eq']
    split
    next hdup => exact exists_error_iff (hopen.1 hdup)
    next hdup =>
      refine ⟨fun _ => not_not.1 fun hnot => hdup (hopen.2 hnot), fun _ => ?_⟩
      split
      · exact ⟨_, rfl⟩
      · exact ⟨_, rfl⟩

variable (rules metrics) in
theorem exists_restored {workspace : WorkspaceState H W} (snapshot : ClosedPaneSnapshot H W) :
    (∃ result, restoreClosedPaneSnapshot rules workspace snapshot metrics = .ok result) ↔
      (maxPanes ≤ workspace.primaryPanes.length ∨ snapshot.Gone workspace) := by
  unfold restoreClosedPaneSnapshot
  dsimp only
  split
  next hfull => exact exists_ok_iff (.inl hfull)
  next hroom =>
    have hany : (workspace.primaryPanes.any fun pane => pane.id == snapshot.pane.id) = true ↔
        snapshot.pane.id ∈ workspace.primaryPanes.map PrimaryPane.id := by
      simp [List.any_eq_true, List.mem_map]
    rw [or_iff_right hroom]
    split
    next hdup => exact exists_error_iff fun hgone => hgone.1 (hany.1 hdup)
    next hnew =>
      rw [hany] at hnew
      rw [ClosedPaneSnapshot.Gone, and_iff_right hnew, ← exists_restoredSecondaryPane rules]
      constructor
      · rintro ⟨_, hok⟩
        obtain ⟨secondaryPane, hsecondary, -⟩ := bind_eq_ok.1 hok
        exact ⟨secondaryPane, hsecondary⟩
      · rintro ⟨secondaryPane, hsecondary⟩
        exact ⟨_, bind_eq_ok.2 ⟨secondaryPane, hsecondary, rfl⟩⟩

/-- **In every state reached the store reduces an action, unless it opens a pane too many,
closes the last one without a fallback, or restores a pane that was not closed lately or
is open again.** -/
theorem reduces_iff [DecidableEq H] (h : (workspaceStore rules).Reachable state) (action : WorkspaceStoreAction H W) :
    (∃ state', workspaceStoreReducer rules state action metrics = .ok state') ↔ action.Reduces state := by
  have hwf := reachable_wellFormed h
  have hcommand (command : PaneCommand H) : (∃ state', workspaceStoreReducer rules state command.action metrics = .ok state') ↔ True := by
    obtain ⟨moved, hmoved, -⟩ := command_step rules hwf command metrics
    exact iff_of_true ⟨_, hmoved⟩ trivial
  cases action with
  | restoreClosedPane paneId =>
    simp only [workspaceStoreReducer, WorkspaceStoreAction.Reduces]
    split
    next hnone =>
      rw [hnone]
      exact exists_error_iff (by simp)
    next snapshot hfind =>
      rw [hfind]
      simp only [Option.some.injEq, exists_eq_left']
      rw [← exists_restored rules metrics snapshot]
      refine exists_bind_ok fun result => ?_
      cases result with
      | restored workspace => exact ⟨_, rfl⟩
      | rejected => exact ⟨_, rfl⟩
  | workspace action =>
    cases action with
    | closePane paneId fallbackState =>
      simp only [workspaceStoreReducer]
      split
      next => exact (exists_bind_ok fun workspace => ⟨_, rfl⟩).trans (hwf.exists_closePane fallbackState)
      next hnone =>
        -- the pane is not open
        refine exists_ok_iff fun _ heq => ?_
        obtain ⟨pane, hpane, hid⟩ := List.map_eq_singleton_iff.1 heq
        exact hnone 0 pane (by simp [hpane, hid]) (by simp [hpane, hid])
    | createPane pane afterPaneId => exact (exists_bind_ok fun workspace => ⟨_, rfl⟩).trans (exists_createPane pane afterPaneId)
    | navigatePane paneId activate transition =>
      cases transition with
      | push visit => exact hcommand ⟨paneId, .push activate visit⟩
      | replace href => exact hcommand ⟨paneId, .replace activate href⟩
    | goBackPane paneId => exact hcommand ⟨paneId, .back⟩
    | goForwardPane paneId => exact hcommand ⟨paneId, .forward⟩
    | _ => exact iff_of_true ⟨_, rfl⟩ trivial

/-! The last pane, and one that was not closed. -/

theorem reduces_iff_browsed : ((∃ state', workspaceStoreReducer plainRules browsedStore (.workspace (.closePane 1 .none)) () = .ok state') ↔
      (WorkspaceStoreAction.workspace (.closePane 1 .none) : WorkspaceStoreAction Nat Unit).Reduces browsedStore) ∧
    ¬ (WorkspaceStoreAction.workspace (.closePane 1 .none) : WorkspaceStoreAction Nat Unit).Reduces browsedStore ∧
    ((∃ state', workspaceStoreReducer plainRules browsedStore (.workspace (.minimizePane 1)) () = .ok state') ↔
      (WorkspaceStoreAction.workspace (.minimizePane 1) : WorkspaceStoreAction Nat Unit).Reduces browsedStore) :=
  ⟨reduces_iff reachable_browsedStore _, fun h => h rfl rfl, reduces_iff reachable_browsedStore _⟩

end

end Nexus.Workspace
