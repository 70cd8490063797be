/-
The states the workspace's store reaches, and what holds of them.

A store starts with a default workspace, with a restored session or with one
that a deep link was merged into, and takes an action at a time. The ids an
action brings are new, and what a close falls back to is a default workspace.
-/
import Nexus.Lib.ExceptFacts
import Nexus.Lib.Run
import Nexus.Workspace.Reducer
import Nexus.Workspace.Trimming
import Mathlib.Data.List.Nodup

namespace Nexus.Workspace

open ExceptFacts Transition

variable {H W M : Type}

/-! ## Well-formed workspaces -/

def PrimaryPane.face (pane : PrimaryPane H W) : Uuid × PaneVisibility := (pane.id, pane.visibility)

def WorkspaceState.faces (state : WorkspaceState H W) : List (Uuid × PaneVisibility) := state.primaryPanes.map PrimaryPane.face

structure WellFormed (state : WorkspaceState H W) : Prop where
  nodup : (state.primaryPanes.map PrimaryPane.id).Nodup
  limits : Limits state.tabs
  active : (state.activePrimaryPaneId, PaneVisibility.visible) ∈ state.faces

theorem ids_eq_tabs (panes : List (PrimaryPane H W)) : panes.map PrimaryPane.id = (panes.map PrimaryPane.tab).map Tab.paneId := by
  rw [List.map_map]
  rfl

theorem face_mem {panes : List (PrimaryPane H W)} {pane : PrimaryPane H W} (hmem : pane ∈ panes)
    (hvisible : pane.isVisible = true) : (pane.id, PaneVisibility.visible) ∈ panes.map PrimaryPane.face := by
  refine List.mem_map.2 ⟨pane, hmem, ?_⟩
  unfold PrimaryPane.isVisible at hvisible
  rw [PrimaryPane.face, eq_of_beq hvisible]

theorem of_face_mem {panes : List (PrimaryPane H W)} {id : Uuid}
    (h : (id, PaneVisibility.visible) ∈ panes.map PrimaryPane.face) :
    ∃ pane ∈ panes, pane.id = id ∧ pane.isVisible = true := by
  obtain ⟨pane, hmem, hface⟩ := List.mem_map.1 h
  rw [PrimaryPane.face, Prod.mk.injEq] at hface
  exact ⟨pane, hmem, hface.1, beq_iff_eq.2 hface.2⟩

theorem WellFormed.of_sublist {state state' : WorkspaceState H W} (h : WellFormed state)
    (hsub : state'.tabs.Sublist state.tabs) (hactive : (state'.activePrimaryPaneId, PaneVisibility.visible) ∈ state'.faces) :
    WellFormed state' where
  nodup := by
    have hids := hsub.map Tab.paneId
    unfold WorkspaceState.tabs at hids
    rw [← ids_eq_tabs, ← ids_eq_tabs] at hids
    exact h.nodup.sublist hids
  limits := h.limits.sublist hsub
  active := hactive

/-! ## The records of panes -/

theorem map_createFromPrimaryPanes {β : Type} {f : PrimaryPane H W → β}
    (hf : ∀ pane id, f { pane with attachedSecondaryPaneId := id } = f pane) (active : Uuid)
    (panes : List (PrimaryPane H W)) (secondaryPanes : List (SecondaryPane W)) :
    (createWorkspaceStateFromPrimaryPanes active panes secondaryPanes).primaryPanes.map f = panes.map f := by
  unfold createWorkspaceStateFromPrimaryPanes
  rw [List.map_map]
  exact List.map_congr_left fun pane _ => hf pane _

theorem map_createWorkspaceState {β : Type} {f : PrimaryPane H W → β}
    (hf : ∀ pane id, f { pane with attachedSecondaryPaneId := id } = f pane) (panes : List (PrimaryPane H W))
    (active : Uuid) (secondaryPanes : List (SecondaryPane W)) :
    (createWorkspaceState panes active secondaryPanes).primaryPanes.map f = panes.map f := by
  unfold createWorkspaceState
  rw [map_createFromPrimaryPanes hf, map_createFromPrimaryPanes hf]

@[simp] theorem tabs_createWorkspaceState (panes : List (PrimaryPane H W)) (active : Uuid)
    (secondaryPanes : List (SecondaryPane W)) :
    (createWorkspaceState panes active secondaryPanes).tabs = panes.map PrimaryPane.tab :=
  map_createWorkspaceState (fun _ _ => rfl) panes active secondaryPanes

@[simp] theorem faces_createWorkspaceState (panes : List (PrimaryPane H W)) (active : Uuid)
    (secondaryPanes : List (SecondaryPane W)) :
    (createWorkspaceState panes active secondaryPanes).faces = panes.map PrimaryPane.face :=
  map_createWorkspaceState (fun _ _ => rfl) panes active secondaryPanes

theorem ids_createWorkspaceState (panes : List (PrimaryPane H W)) (active : Uuid)
    (secondaryPanes : List (SecondaryPane W)) :
    (createWorkspaceState panes active secondaryPanes).primaryPanes.map PrimaryPane.id = panes.map PrimaryPane.id :=
  map_createWorkspaceState (fun _ _ => rfl) panes active secondaryPanes

/-! ## Trimming and the active pane -/

theorem ids_trim (state : WorkspaceState H W) :
    (trimWorkspacePaneHistory state).primaryPanes.map PrimaryPane.id = state.primaryPanes.map PrimaryPane.id :=
  map_trim (fun _ _ => rfl) state

theorem faces_trim (state : WorkspaceState H W) : (trimWorkspacePaneHistory state).faces = state.faces :=
  map_trim (fun _ _ => rfl) state

theorem wellFormed_trim {state : WorkspaceState H W} (hnodup : (state.primaryPanes.map PrimaryPane.id).Nodup)
    (hactive : (state.activePrimaryPaneId, PaneVisibility.visible) ∈ state.faces) :
    WellFormed (trimWorkspacePaneHistory state) where
  nodup := by rwa [ids_trim]
  limits := limits_trim state
  active := by rwa [faces_trim]

theorem ensureActive_of_active {state : WorkspaceState H W}
    (hactive : (state.activePrimaryPaneId, PaneVisibility.visible) ∈ state.faces) : ensureActivePaneId state = .ok state := by
  obtain ⟨pane, hmem, hid, hvisible⟩ := of_face_mem hactive
  unfold ensureActivePaneId
  rw [if_neg, if_pos]
  · rw [List.any_eq_true]
    exact ⟨pane, hmem, by simp [hid, hvisible]⟩
  · intro hempty
    rw [List.isEmpty_iff] at hempty
    rw [hempty] at hmem
    cases hmem

theorem ensureActive_ok {state state' : WorkspaceState H W} (h : ensureActivePaneId state = .ok state') :
    state'.primaryPanes = state.primaryPanes ∧ (state'.activePrimaryPaneId, PaneVisibility.visible) ∈ state'.faces := by
  unfold ensureActivePaneId at h
  rw [check_eq_ok] at h
  obtain ⟨_, h⟩ := h
  split at h
  next hany =>
    cases h
    obtain ⟨pane, hmem, hpane⟩ := List.any_eq_true.1 hany
    rw [Bool.and_eq_true, beq_iff_eq] at hpane
    exact ⟨rfl, hpane.1 ▸ face_mem hmem hpane.2⟩
  next =>
    split at h
    next pane hfind =>
      cases h
      exact ⟨rfl, face_mem (List.mem_of_find?_eq_some hfind) (List.find?_some hfind)⟩
    next => cases h

theorem wellFormed_trimAndEnsure {state state' : WorkspaceState H W} (h : trimAndEnsureActivePaneId state = .ok state')
    (hnodup : (state.primaryPanes.map PrimaryPane.id).Nodup) : WellFormed state' := by
  obtain ⟨hpanes, hactive⟩ := ensureActive_ok h
  refine ⟨?_, ?_, hactive⟩
  · rw [hpanes, ids_trim]
    exact hnodup
  · unfold WorkspaceState.tabs
    rw [hpanes]
    exact limits_trim state

theorem WellFormed.ensureActive {state state' trimmed : WorkspaceState H W} (hwf : WellFormed state)
    (h : ensureActivePaneId trimmed = .ok state') (hsub : trimmed.tabs.Sublist state.tabs) : WellFormed state' := by
  obtain ⟨hpanes, hactive⟩ := ensureActive_ok h
  refine hwf.of_sublist ?_ hactive
  unfold WorkspaceState.tabs at hsub ⊢
  rwa [hpanes]

/-! ## Reducing -/

section

variable {state state' : WorkspaceState H W}

theorem WellFormed.activatePane (h : WellFormed state) (paneId : Uuid) : WellFormed (state.activatePane paneId) := by
  unfold WorkspaceState.activatePane
  split
  next => exact h
  next hcond =>
    rw [Bool.or_eq_true, not_or, Bool.not_eq_true', Bool.not_eq_false] at hcond
    obtain ⟨pane, hmem, hpane⟩ := List.any_eq_true.1 hcond.2
    rw [Bool.and_eq_true, beq_iff_eq] at hpane
    exact h.of_sublist (List.Sublist.refl _) (hpane.1 ▸ face_mem hmem hpane.2)

theorem nodup_insert {panes : List (PrimaryPane H W)} (hnodup : (panes.map PrimaryPane.id).Nodup) {pane : PrimaryPane H W}
    (hnew : pane.id ∉ panes.map PrimaryPane.id) (index : Nat) :
    ((panes.take index ++ pane :: panes.drop index).map PrimaryPane.id).Nodup := by
  have hperm : (panes.take index ++ pane :: panes.drop index).Perm (pane :: panes) := by
    have hmiddle : (panes.take index ++ pane :: panes.drop index).Perm (pane :: (panes.take index ++ panes.drop index)) :=
      List.perm_middle
    rwa [List.take_append_drop] at hmiddle
  rw [(hperm.map PrimaryPane.id).nodup_iff]
  exact List.nodup_cons.2 ⟨hnew, hnodup⟩

theorem WellFormed.createPane {rules : PaneRules H W M} (h : WellFormed state) {pane : PrimaryPane H W}
    {afterPaneId : Option Uuid} {metrics : M} (hnew : pane.id ∉ state.primaryPanes.map PrimaryPane.id)
    (hcreate : state.createPane rules pane afterPaneId metrics = .ok state') : WellFormed state' := by
  unfold WorkspaceState.createPane at hcreate
  rw [check_eq_ok] at hcreate
  refine wellFormed_trimAndEnsure hcreate.2 ?_
  rw [ids_createWorkspaceState]
  refine nodup_insert h.nodup ?_ _
  exact hnew

theorem map_rewrite {β : Type} {panes : List (PrimaryPane H W)} {f : PrimaryPane H W → PrimaryPane H W}
    {g : PrimaryPane H W → β} (h : ∀ pane ∈ panes, g (f pane) = g pane) : (panes.map f).map g = panes.map g := by
  rw [List.map_map]
  exact List.map_congr_left h

theorem applyPaneVisitTransition_id [DecidableEq H] (rules : PaneRules H W M) (pane : PrimaryPane H W)
    (transition : PaneVisitTransition H) (metrics : M) (attached : Option (SecondaryPane W)) (preserve : Option Bool) :
    (applyPaneVisitTransition rules pane transition metrics attached preserve).id = pane.id := by
  unfold applyPaneVisitTransition
  dsimp only
  split
  · rfl
  · rfl

theorem WellFormed.navigatePane [DecidableEq H] {rules : PaneRules H W M} (h : WellFormed state) {paneId : Uuid}
    {activate : Bool} {transition : PaneVisitTransition H} {metrics : M}
    (hnavigate : state.navigatePane rules paneId activate transition metrics = .ok state') : WellFormed state' := by
  unfold WorkspaceState.navigatePane at hnavigate
  dsimp only at hnavigate
  split at hnavigate
  next =>
    cases hnavigate
    exact h
  next =>
    refine wellFormed_trimAndEnsure hnavigate ?_
    rw [ids_createWorkspaceState, map_rewrite]
    · exact h.nodup
    · intro pane _
      split
      · exact applyPaneVisitTransition_id rules pane transition metrics _ _
      · rfl

theorem traversePaneHistory_id {rules : PaneRules H W M} {pane traversed : PrimaryPane H W}
    {direction : PaneHistoryDirection} {metrics : M} {attached : Option (SecondaryPane W)}
    (h : traversePaneHistory rules pane direction metrics attached = .some traversed) : traversed.id = pane.id := by
  obtain ⟨_, _, rfl⟩ := Option.map_eq_some_iff.1 h
  rfl

theorem WellFormed.traversePane {rules : PaneRules H W M} (h : WellFormed state) {direction : PaneHistoryDirection}
    {paneId : Uuid} {metrics : M} (htraverse : state.traversePane rules direction paneId metrics = .ok state') :
    WellFormed state' := by
  unfold WorkspaceState.traversePane at htraverse
  dsimp only at htraverse
  split at htraverse
  next =>
    cases htraverse
    exact h
  next pane hfind =>
    split at htraverse
    next =>
      cases htraverse
      exact h
    next traversed hto =>
      refine wellFormed_trimAndEnsure htraverse ?_
      rw [ids_createWorkspaceState, map_rewrite]
      · exact h.nodup
      · intro p _
        split
        · rfl
        · next hid =>
          have hfound : pane.id = paneId := by simpa using List.find?_some hfind
          have hsame : p.id = paneId := by simpa using hid
          rw [traversePaneHistory_id hto, hfound, hsame]

theorem WellFormed.rewrite (h : WellFormed state) {f : PrimaryPane H W → PrimaryPane H W} (hf : ∀ pane, (f pane).tab = pane.tab)
    {active : Uuid} {secondaryPanes : List (SecondaryPane W)}
    (hactive : (active, PaneVisibility.visible) ∈ (state.primaryPanes.map f).map PrimaryPane.face) :
    WellFormed (createWorkspaceState (state.primaryPanes.map f) active secondaryPanes) := by
  refine h.of_sublist ?_ ?_
  · rw [tabs_createWorkspaceState, map_rewrite fun pane _ => hf pane]
    exact List.Sublist.refl _
  · rwa [faces_createWorkspaceState]

theorem WellFormed.rewrite_same (h : WellFormed state) {f : PrimaryPane H W → PrimaryPane H W}
    (hf : ∀ pane, (f pane).tab = pane.tab) (hface : ∀ pane, (f pane).face = pane.face)
    (secondaryPanes : List (SecondaryPane W)) :
    WellFormed (createWorkspaceState (state.primaryPanes.map f) state.activePrimaryPaneId secondaryPanes) := by
  refine h.rewrite hf ?_
  rw [map_rewrite fun pane _ => hface pane]
  exact h.active

theorem WellFormed.secondary (h : WellFormed state) (secondaryPanes : List (SecondaryPane W)) :
    WellFormed (createWorkspaceState state.primaryPanes state.activePrimaryPaneId secondaryPanes) := by
  have hsame := h.rewrite_same (f := id) (fun _ => rfl) (fun _ => rfl) secondaryPanes
  rwa [List.map_id] at hsame

theorem WellFormed.resizePrimaryPane (h : WellFormed state) (rules : PaneRules H W M) (paneId : Uuid) (widthPx : W)
    (metrics : M) : WellFormed (state.resizePrimaryPane rules paneId widthPx metrics) := by
  refine h.rewrite_same (fun pane => ?_) (fun pane => ?_) _
  · split <;> rfl
  · split <;> rfl

theorem WellFormed.requestSecondarySurface (h : WellFormed state) (rules : PaneRules H W M) (primaryPaneId : Uuid)
    (surfaceId : SecondarySurfaceId) (newSecondaryPaneId : Uuid) :
    WellFormed (state.requestSecondarySurface rules primaryPaneId surfaceId newSecondaryPaneId) := by
  unfold WorkspaceState.requestSecondarySurface
  split
  next => exact h
  next =>
    dsimp only
    split
    next => exact h
    next =>
      refine h.rewrite_same (fun pane => ?_) (fun pane => ?_) _
      · split <;> rfl
      · split <;> rfl

theorem WellFormed.rewriteSecondaryPane (h : WellFormed state) (secondaryPaneId : Uuid)
    (f : SecondaryPane W → SecondaryPane W) : WellFormed (state.rewriteSecondaryPane secondaryPaneId f) := by
  unfold WorkspaceState.rewriteSecondaryPane
  split
  next => exact h
  next => exact h.secondary _

theorem WellFormed.setSecondarySurface (h : WellFormed state) (secondaryPaneId : Uuid) (surfaceId : SecondarySurfaceId) :
    WellFormed (state.setSecondarySurface secondaryPaneId surfaceId) := by
  unfold WorkspaceState.setSecondarySurface
  split
  next => exact h
  next =>
    split
    next => exact h
    next => exact h.rewriteSecondaryPane _ _

theorem WellFormed.dropSecondaryPane (h : WellFormed state) (secondaryPaneId : Uuid) :
    WellFormed (state.dropSecondaryPane secondaryPaneId) := by
  unfold WorkspaceState.dropSecondaryPane
  split
  next => exact h
  next =>
    refine h.rewrite_same (fun pane => ?_) (fun pane => ?_) _
    · split <;> rfl
    · split <;> rfl

theorem WellFormed.restorePane (h : WellFormed state) (paneId : Uuid) : WellFormed (state.restorePane paneId) := by
  unfold WorkspaceState.restorePane
  split
  next => exact h
  next hany =>
    rw [Bool.not_eq_true', Bool.not_eq_false, List.any_eq_true] at hany
    obtain ⟨pane, hmem, hid⟩ := hany
    refine h.rewrite (fun pane => ?_) ?_
    · split <;> rfl
    · rw [List.map_map]
      refine List.mem_map.2 ⟨pane, hmem, ?_⟩
      rw [Function.comp_apply, if_pos hid, PrimaryPane.face, beq_iff_eq.1 hid]

theorem replacementPane_mem {after before : List (PrimaryPane H W)} {pane : PrimaryPane H W}
    (h : replacementPane after before = .some pane) : (pane ∈ after ∨ pane ∈ before) ∧ pane.isVisible = true := by
  rw [replacementPane, Option.orElse_eq_or, Option.or_eq_some_iff] at h
  rcases h with h | ⟨_, h⟩
  · exact ⟨.inl (List.mem_of_find?_eq_some h), List.find?_some h⟩
  · exact ⟨.inr (List.mem_reverse.1 (List.mem_of_find?_eq_some h)), List.find?_some h⟩

theorem WellFormed.minimizePane (h : WellFormed state) (paneId : Uuid) : WellFormed (state.minimizePane paneId) := by
  unfold WorkspaceState.minimizePane
  dsimp only
  split
  next => exact h
  next pane hpane =>
    split
    next => exact h
    next =>
      have hlt := (List.getElem?_eq_some_iff.1 hpane).1
      have hget := (List.getElem?_eq_some_iff.1 hpane).2
      have hid : pane.id = paneId := by
        have hfound := List.findIdx_getElem (w := hlt)
        rw [hget] at hfound
        exact beq_iff_eq.1 hfound
      -- A visible pane other than the minimized one is there to be active.
      have hminimized : ∀ active, ∀ other ∈ state.primaryPanes, other.id = active → other.isVisible = true →
          active ≠ paneId → WellFormed (createWorkspaceState (state.primaryPanes.map fun p =>
            if p.id == paneId then { p with visibility := .minimized } else p) active state.secondaryPanes) := by
        intro active other hmem hother hvisible hne
        refine h.rewrite (fun pane => ?_) ?_
        · split <;> rfl
        · have hface := face_mem (List.mem_map_of_mem (f := fun p : PrimaryPane H W =>
            if p.id == paneId then { p with visibility := .minimized } else p) hmem)
          rw [if_neg (by rw [beq_iff_eq, hother]; exact hne), hother] at hface
          exact hface hvisible
      split
      next hactive =>
        split
        next => exact h
        next replacement hreplacement =>
          obtain ⟨hmem, hvisible⟩ := replacementPane_mem hreplacement
          have hpanes := List.take_append_drop (state.primaryPanes.findIdx (·.id == paneId)) state.primaryPanes
          rw [List.drop_eq_getElem_cons hlt, hget] at hpanes
          have hnodup := h.nodup
          rw [← hpanes, List.map_append, List.map_cons, List.perm_middle.nodup_iff, List.nodup_cons, hid] at hnodup
          refine hminimized _ replacement ?_ rfl hvisible ?_
          · rcases hmem with hmem | hmem
            · exact List.mem_of_mem_drop hmem
            · exact List.mem_of_mem_take hmem
          · intro heq
            have hin := hmem.symm.imp (List.mem_map_of_mem (f := PrimaryPane.id)) (List.mem_map_of_mem (f := PrimaryPane.id))
            rw [← List.mem_append, heq] at hin
            exact hnodup.1 hin
      next hactive =>
        obtain ⟨other, hmem, hother, hvisible⟩ := of_face_mem h.active
        refine hminimized _ other hmem hother hvisible ?_
        rw [beq_iff_eq, hid] at hactive
        exact Ne.symm hactive

theorem paneAfterClose_tabs (closedIdx : Nat) (panes : List (PrimaryPane H W)) (paneId : Uuid) :
    (state.paneAfterClose closedIdx panes paneId).2.map PrimaryPane.tab = panes.map PrimaryPane.tab := by
  unfold WorkspaceState.paneAfterClose
  split
  · split
    · rfl
    · split
      · refine map_rewrite fun pane _ => ?_
        split <;> rfl
      · rfl
  · rfl

theorem WellFormed.closePane (h : WellFormed state) {paneId : Uuid} {fallbackState : Option (WorkspaceState H W)}
    (hfallback : ∀ fallback, fallbackState = .some fallback → WellFormed fallback)
    (hclose : state.closePane paneId fallbackState = .ok state') : WellFormed state' := by
  unfold WorkspaceState.closePane at hclose
  split at hclose
  next =>
    cases hclose
    exact h
  next closedIdx _ =>
    dsimp only at hclose
    split at hclose
    next =>
      split at hclose
      next => cases hclose
      next fallback =>
        cases hclose
        exact hfallback _ rfl
    next =>
      refine h.ensureActive hclose ?_
      rw [tabs_createWorkspaceState, paneAfterClose_tabs]
      exact List.filter_sublist.map _

/-- What a dispatch brings: a new pane's id is new, and a close falls back to a default workspace. -/
def WorkspaceAction.Admissible (rules : PaneRules H W M) (state : WorkspaceState H W) : WorkspaceAction H W → Prop
  | .createPane pane _ => pane.id ∉ state.primaryPanes.map PrimaryPane.id
  | .closePane _ (.some fallbackState) =>
    ∃ href metrics paneId visitId, fallbackState = createDefaultWorkspaceState rules href metrics paneId visitId
  | _ => True

theorem wellFormed_default (rules : PaneRules H W M) (href : H) (metrics : M) (paneId visitId : Uuid) :
    WellFormed (createDefaultWorkspaceState rules href metrics paneId visitId) where
  nodup := List.nodup_singleton _
  limits := by
    refine ⟨fun tab hmem => ?_, fun tab hmem => ?_, Nat.zero_le _⟩
    · cases List.mem_singleton.1 hmem
      exact Nat.zero_le _
    · cases List.mem_singleton.1 hmem
      exact Nat.zero_le _
  active := List.mem_singleton.2 rfl

theorem WellFormed.workspaceReducer [DecidableEq H] {rules : PaneRules H W M} (h : WellFormed state)
    {action : WorkspaceAction H W} {metrics : M} (hadmissible : action.Admissible rules state)
    (hreduce : workspaceReducer rules state action metrics = .ok state') : WellFormed state' := by
  cases action with
  | activatePane paneId =>
    cases hreduce
    exact h.activatePane paneId
  | createPane pane afterPaneId => exact h.createPane hadmissible hreduce
  | navigatePane paneId activate transition => exact h.navigatePane hreduce
  | goBackPane paneId => exact h.traversePane hreduce
  | goForwardPane paneId => exact h.traversePane hreduce
  | closePane paneId fallbackState =>
    refine h.closePane ?_ hreduce
    rintro fallback rfl
    obtain ⟨href, _, id, visitId, rfl⟩ := hadmissible
    exact wellFormed_default rules href _ id visitId
  | resizePrimaryPane paneId widthPx =>
    cases hreduce
    exact h.resizePrimaryPane rules paneId widthPx metrics
  | requestSecondarySurface primaryPaneId surfaceId secondaryPaneId =>
    cases hreduce
    exact h.requestSecondarySurface rules primaryPaneId surfaceId secondaryPaneId
  | closeSecondaryPane secondaryPaneId =>
    cases hreduce
    exact h.rewriteSecondaryPane secondaryPaneId _
  | dropSecondaryPane secondaryPaneId =>
    cases hreduce
    exact h.dropSecondaryPane secondaryPaneId
  | setSecondarySurface secondaryPaneId surfaceId =>
    cases hreduce
    exact h.setSecondarySurface secondaryPaneId surfaceId
  | resizeSecondaryPane secondaryPaneId widthPx =>
    cases hreduce
    exact h.rewriteSecondaryPane secondaryPaneId _
  | minimizePane paneId =>
    cases hreduce
    exact h.minimizePane paneId
  | restorePane paneId =>
    cases hreduce
    exact h.restorePane paneId

theorem WellFormed.restoreClosedPaneSnapshot {rules : PaneRules H W M} (h : WellFormed state)
    {snapshot : ClosedPaneSnapshot H W} {metrics : M}
    (hrestore : restoreClosedPaneSnapshot rules state snapshot metrics = .ok (.restored state')) : WellFormed state' := by
  unfold Nexus.Workspace.restoreClosedPaneSnapshot at hrestore
  dsimp only at hrestore
  split at hrestore
  next => cases hrestore
  next =>
    split at hrestore
    next => cases hrestore
    next hany =>
      obtain ⟨secondaryPane, _, hrestore⟩ := bind_eq_ok.1 hrestore
      cases hrestore
      have hnew : snapshot.pane.id ∉ state.primaryPanes.map PrimaryPane.id := by
        intro hmem
        obtain ⟨pane, hpane, hid⟩ := List.mem_map.1 hmem
        exact hany (List.any_eq_true.2 ⟨pane, hpane, beq_iff_eq.2 hid⟩)
      refine wellFormed_trim ?_ ?_
      · rw [map_createFromPrimaryPanes fun _ _ => rfl]
        refine nodup_insert h.nodup ?_ _
        exact hnew
      · unfold WorkspaceState.faces
        rw [map_createFromPrimaryPanes fun _ _ => rfl, List.map_append, List.map_cons]
        exact List.mem_append_right _ List.mem_cons_self

end

/-! ## Starting -/

/-- What `parsePersistedWorkspaceState` checks of the panes of a session. -/
structure PersistedChecks (persisted : WorkspaceState H W) : Prop extends WellFormed persisted where
  length : persisted.primaryPanes.length ≤ maxPanes

theorem wellFormed_prepareRestoredState (rules : PaneRules H W M) {persisted : WorkspaceState H W}
    (h : PersistedChecks persisted) (metrics : M) (restricted : H → Bool) (fallbackHref : H) (paneId visitId : Uuid) :
    WellFormed (prepareRestoredState rules persisted metrics restricted fallbackHref paneId visitId) := by
  unfold prepareRestoredState
  dsimp only
  split
  next => exact wellFormed_default rules fallbackHref metrics paneId visitId
  next first rest hvisible =>
    refine h.toWellFormed.of_sublist ?_ ?_
    · unfold WorkspaceState.tabs
      rw [map_createFromPrimaryPanes fun _ _ => rfl, map_rewrite]
      · exact List.filter_sublist.map _
      · exact fun _ _ => rfl
    · unfold WorkspaceState.faces
      rw [map_createFromPrimaryPanes fun _ _ => rfl]
      -- The active pane is one of the visible ones.
      have hseen : ∀ pane ∈ first :: rest, (pane.id, PaneVisibility.visible) ∈
          (((persisted.primaryPanes.filter fun pane => !restricted pane.currentVisit.href).map fun pane =>
            { pane with primaryWidthPx := rules.clampPaneWidth pane.primaryWidthPx metrics }).map PrimaryPane.face) := by
        intro pane hmem
        rw [← hvisible, List.mem_filter] at hmem
        exact face_mem hmem.1 hmem.2
      unfold createWorkspaceStateFromPrimaryPanes
      dsimp only
      split
      next hany =>
        obtain ⟨pane, hmem, hid⟩ := List.any_eq_true.1 hany
        rw [← beq_iff_eq.1 hid]
        exact hseen pane hmem
      next => exact hseen first List.mem_cons_self

theorem wellFormed_merge [DecidableEq H] {rules : PaneRules H W M} {restored deepLinkIntent merged : WorkspaceState H W}
    {metrics : M} {newPaneId : Uuid} (h : WellFormed restored) (hnew : newPaneId ∉ restored.primaryPanes.map PrimaryPane.id)
    (hmerge : mergeRestoredWorkspaceWithDeepLink rules restored deepLinkIntent metrics newPaneId = .ok merged) :
    WellFormed merged := by
  unfold mergeRestoredWorkspaceWithDeepLink at hmerge
  dsimp only at hmerge
  split at hmerge
  next =>
    cases hmerge
    exact h
  next requestedPane _ =>
    split at hmerge
    next existingPane _ =>
      refine wellFormed_trimAndEnsure hmerge ?_
      rw [ids_createWorkspaceState, map_rewrite]
      · exact h.nodup
      · intro pane _
        split
        · rfl
        · exact applyPaneVisitTransition_id rules pane _ metrics _ _
    next =>
      refine wellFormed_trimAndEnsure hmerge ?_
      rw [ids_createWorkspaceState, List.map_append, List.nodup_append_comm]
      have hsub : ((if maxPanes ≤ restored.primaryPanes.length then
          restored.primaryPanes.drop (restored.primaryPanes.length - (maxPanes - 1))
          else restored.primaryPanes).map PrimaryPane.id).Sublist (restored.primaryPanes.map PrimaryPane.id) := by
        split
        · exact (List.drop_sublist _ _).map _
        · exact List.Sublist.refl _
      refine List.nodup_cons.2 ⟨fun hmem => ?_, h.nodup.sublist hsub⟩
      have hin := hsub.subset hmem
      dsimp only at hin
      split at hin
      next => exact hnew hin
      next hany =>
        obtain ⟨pane, hpane, hid⟩ := List.mem_map.1 hin
        exact hany (List.any_eq_true.2 ⟨pane, hpane, beq_iff_eq.2 hid⟩)

inductive InitialWorkspace [DecidableEq H] (rules : PaneRules H W M) : WorkspaceState H W → Prop
  | default (href : H) (metrics : M) (paneId visitId : Uuid) :
    InitialWorkspace rules (createDefaultWorkspaceState rules href metrics paneId visitId)
  | resumed {persisted : WorkspaceState H W} (h : PersistedChecks persisted) (metrics : M) (restricted : H → Bool)
      (fallbackHref : H) (paneId visitId : Uuid) :
    InitialWorkspace rules (prepareRestoredState rules persisted metrics restricted fallbackHref paneId visitId)
  | navigated {persisted merged : WorkspaceState H W} (h : PersistedChecks persisted) (metrics : M)
      (restricted : H → Bool) (fallbackHref : H) (paneId visitId : Uuid) (href : H) (linkPaneId linkVisitId newPaneId : Uuid)
      (hnew : newPaneId ∉
        (prepareRestoredState rules persisted metrics restricted fallbackHref paneId visitId).primaryPanes.map PrimaryPane.id)
      (hmerge : mergeRestoredWorkspaceWithDeepLink rules
        (prepareRestoredState rules persisted metrics restricted fallbackHref paneId visitId)
        (createDefaultWorkspaceState rules href metrics linkPaneId linkVisitId) metrics newPaneId = .ok merged) :
    InitialWorkspace rules merged

theorem InitialWorkspace.wellFormed [DecidableEq H] {rules : PaneRules H W M} {state : WorkspaceState H W}
    (h : InitialWorkspace rules state) : WellFormed state := by
  cases h with
  | default href metrics paneId visitId => exact wellFormed_default rules href metrics paneId visitId
  | resumed hpersisted metrics restricted fallbackHref paneId visitId =>
    exact wellFormed_prepareRestoredState rules hpersisted metrics restricted fallbackHref paneId visitId
  | navigated hpersisted metrics restricted fallbackHref paneId visitId href linkPaneId linkVisitId newPaneId hnew hmerge =>
    exact wellFormed_merge
      (wellFormed_prepareRestoredState rules hpersisted metrics restricted fallbackHref paneId visitId) hnew hmerge

/-! ## The store -/

def WorkspaceStoreAction.Admissible (rules : PaneRules H W M) (state : WorkspaceReducerState H W) :
    WorkspaceStoreAction H W → Prop
  | .workspace action => action.Admissible rules state.workspace
  | .restoreClosedPane _ => True

/-- The store of a page, an action reduced with the metrics of its render. -/
def workspaceStore [DecidableEq H] (rules : PaneRules H W M) :
    System (WorkspaceReducerState H W) (WorkspaceStoreAction H W × M) where
  init state := InitialWorkspace rules state.workspace ∧ state.recentlyClosedPanes = []
  step state label state' := label.1.Admissible rules state ∧ workspaceStoreReducer rules state label.1 label.2 = .ok state'

theorem wellFormed_workspaceStoreReducer [DecidableEq H] {rules : PaneRules H W M} {state state' : WorkspaceReducerState H W}
    {action : WorkspaceStoreAction H W} {metrics : M} (h : WellFormed state.workspace)
    (hadmissible : action.Admissible rules state)
    (hreduce : workspaceStoreReducer rules state action metrics = .ok state') : WellFormed state'.workspace := by
  unfold workspaceStoreReducer at hreduce
  split at hreduce
  next paneId =>
    split at hreduce
    next => cases hreduce
    next snapshot _ =>
      obtain ⟨result, hresult, hreduce⟩ := bind_eq_ok.1 hreduce
      cases result with
      | rejected =>
        cases hreduce
        exact h
      | restored workspace =>
        cases hreduce
        exact h.restoreClosedPaneSnapshot hresult
  next paneId fallbackState =>
    dsimp only at hreduce
    split at hreduce
    next orderIndex pane _ _ =>
      obtain ⟨workspace, hworkspace, hreduce⟩ := bind_eq_ok.1 hreduce
      cases hreduce
      exact h.workspaceReducer hadmissible hworkspace
    next =>
      cases hreduce
      exact h
  next action _ =>
    obtain ⟨workspace, hworkspace, hreduce⟩ := bind_eq_ok.1 hreduce
    cases hreduce
    exact h.workspaceReducer hadmissible hworkspace

/-- **Every workspace a store reaches is well formed.** -/
theorem reachable_wellFormed [DecidableEq H] {rules : PaneRules H W M} {state : WorkspaceReducerState H W}
    (h : (workspaceStore rules).Reachable state) : WellFormed state.workspace :=
  System.Reachable.invariant (S := workspaceStore rules) (I := fun state => WellFormed state.workspace)
    (fun _ hinit => hinit.1.wellFormed)
    (fun _ _ _ hstep hwf => wellFormed_workspaceStoreReducer hwf hstep.1 hstep.2) h

end Nexus.Workspace
