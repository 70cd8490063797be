/-
The workspace store's reducer: `lib/workspace/store.tsx`.

An action's ids and its fallback state were made before it was dispatched. The
reducer is told the metrics of the render that reduces.
-/
import Nexus.Workspace.Schema

namespace Nexus.Workspace

inductive WorkspaceAction (H W : Type)
  | activatePane (paneId : Uuid)
  | createPane (pane : PrimaryPane H W) (afterPaneId : Option Uuid)
  | navigatePane (paneId : Uuid) (activate : Bool) (transition : PaneVisitTransition H)
  | goBackPane (paneId : Uuid)
  | goForwardPane (paneId : Uuid)
  | closePane (paneId : Uuid) (fallbackState : Option (WorkspaceState H W))
  | resizePrimaryPane (paneId : Uuid) (widthPx : W)
  | requestSecondarySurface (primaryPaneId : Uuid) (surfaceId : SecondarySurfaceId) (secondaryPaneId : Uuid)
  | closeSecondaryPane (secondaryPaneId : Uuid)
  | dropSecondaryPane (secondaryPaneId : Uuid)
  | setSecondarySurface (secondaryPaneId : Uuid) (surfaceId : SecondarySurfaceId)
  | resizeSecondaryPane (secondaryPaneId : Uuid) (widthPx : W)
  | minimizePane (paneId : Uuid)
  | restorePane (paneId : Uuid)
  deriving DecidableEq, Repr

/-- The visible pane that takes over from the one at an index, the panes after
it first, then those before it from the nearest. -/
def replacementPane {H W : Type} (after before : List (PrimaryPane H W)) : Option (PrimaryPane H W) :=
  (after.find? PrimaryPane.isVisible).orElse fun _ => before.reverse.find? PrimaryPane.isVisible

section Reducer

variable {H W M : Type} [DecidableEq H] (rules : PaneRules H W M)

namespace WorkspaceState

variable (state : WorkspaceState H W)

omit [DecidableEq H] in
/-- `case "activate_pane"` -/
def activatePane (paneId : Uuid) : WorkspaceState H W :=
  if state.activePrimaryPaneId == paneId || !state.primaryPanes.any (fun p => p.id == paneId && p.isVisible) then state
  else { state with activePrimaryPaneId := paneId }

omit [DecidableEq H] in
/-- `case "create_pane"` -/
def createPane (pane : PrimaryPane H W) (afterPaneId : Option Uuid) (metrics : M) :
    Except WorkspaceDefect (WorkspaceState H W) :=
  let panes := state.primaryPanes
  let paneToOpen : PrimaryPane H W := { pane with
    primaryWidthPx := rules.clampPaneWidth pane.primaryWidthPx metrics
    visibility := .visible
    attachedSecondaryPaneId := .none }
  if maxPanes ≤ panes.length then .error .paneLimitExceeded
  else
    let afterPaneIndex := afterPaneId.bind fun id => panes.findIdx? (·.id == id)
    let insertIdx := match afterPaneIndex with
      | .some index => index + 1
      | .none => panes.length
    trimAndEnsureActivePaneId (createWorkspaceState (panes.take insertIdx ++ paneToOpen :: panes.drop insertIdx)
      paneToOpen.id state.secondaryPanes)

/-- `case "navigate_pane"` -/
def navigatePane (paneId : Uuid) (activate : Bool) (transition : PaneVisitTransition H) (metrics : M) :
    Except WorkspaceDefect (WorkspaceState H W) :=
  let panes := state.primaryPanes
  if !panes.any (·.id == paneId) then .ok state
  else
    let nextPanes := panes.map fun p =>
      if p.id == paneId then
        { applyPaneVisitTransition rules p transition metrics (state.getAttachedSecondaryPane p)
            (.some (rules.hasSamePaneResource p.currentVisit.href transition.href)) with
          visibility := if activate then .visible else p.visibility }
      else p
    trimAndEnsureActivePaneId (createWorkspaceState nextPanes
      (if activate then paneId else state.activePrimaryPaneId) state.secondaryPanes)

omit [DecidableEq H] in
/-- `case "go_back_pane"` and `case "go_forward_pane"` -/
def traversePane (direction : PaneHistoryDirection) (paneId : Uuid) (metrics : M) :
    Except WorkspaceDefect (WorkspaceState H W) :=
  let panes := state.primaryPanes
  match panes.find? (·.id == paneId) with
  | .none => .ok state
  | .some pane =>
    match traversePaneHistory rules pane direction metrics (state.getAttachedSecondaryPane pane) with
    | .none => .ok state
    | .some traversed =>
      trimAndEnsureActivePaneId (createWorkspaceState (panes.map fun p => if p.id != paneId then p else traversed) paneId
        state.secondaryPanes)

omit [DecidableEq H] in
/-- The active pane and the panes a close leaves, when any is left. -/
def paneAfterClose (closedIdx : Nat) (panes : List (PrimaryPane H W)) (paneId : Uuid) : Uuid × List (PrimaryPane H W) :=
  if state.activePrimaryPaneId == paneId ||
      !panes.any (fun p => p.id == state.activePrimaryPaneId && p.isVisible) then
    match replacementPane (panes.drop closedIdx) (panes.take closedIdx) with
    | .some replacement => (replacement.id, panes)
    | .none =>
      match (panes[min closedIdx (panes.length - 1)]?).orElse fun _ => panes.head? with
      | .some restoredPane =>
        (restoredPane.id, panes.map fun p => if p.id == restoredPane.id then { p with visibility := .visible } else p)
      | .none => (state.activePrimaryPaneId, panes)
  else (state.activePrimaryPaneId, panes)

omit [DecidableEq H] in
/-- `case "close_pane"` -/
def closePane (paneId : Uuid) (fallbackState : Option (WorkspaceState H W)) :
    Except WorkspaceDefect (WorkspaceState H W) :=
  match state.primaryPanes.findIdx? (·.id == paneId) with
  | .none => .ok state
  | .some closedIdx =>
    let panes := state.primaryPanes.filter fun p => p.id != paneId
    if panes.isEmpty then
      match fallbackState with
      | .none => .error .missingFallback
      | .some fallbackState => .ok fallbackState
    else
      let (activePrimaryPaneId, panes) := state.paneAfterClose closedIdx panes paneId
      ensureActivePaneId (createWorkspaceState panes activePrimaryPaneId state.secondaryPanes)

omit [DecidableEq H] in
/-- `case "resize_primary_pane"` -/
def resizePrimaryPane (paneId : Uuid) (widthPx : W) (metrics : M) : WorkspaceState H W :=
  createWorkspaceState (state.primaryPanes.map fun p =>
    if p.id == paneId then { p with primaryWidthPx := rules.clampPaneWidth widthPx metrics } else p)
    state.activePrimaryPaneId state.secondaryPanes

omit [DecidableEq H] in
/-- `case "request_secondary_surface"` -/
def requestSecondarySurface (primaryPaneId : Uuid) (surfaceId : SecondarySurfaceId) (newSecondaryPaneId : Uuid) :
    WorkspaceState H W :=
  match state.primaryPanes.find? (·.id == primaryPaneId) with
  | .none => state
  | .some primaryPane =>
    let groupId := getSecondaryGroupForSurface surfaceId
    if !rules.paneRouteAllowsSecondaryGroup primaryPane.currentVisit.href groupId then state
    else
      let current := (state.getAttachedSecondaryPane primaryPane).filter (·.groupId == groupId)
      let secondaryPaneId := (current.map SecondaryPane.id).getD newSecondaryPaneId
      let secondaryPane : SecondaryPane W := ⟨secondaryPaneId, primaryPane.id, groupId, surfaceId,
        rules.secondaryWidthPx (current.map SecondaryPane.widthPx) groupId, .visible⟩
      createWorkspaceState (state.primaryPanes.map fun pane =>
        if pane.id == primaryPane.id then { pane with attachedSecondaryPaneId := .some secondaryPaneId } else pane)
        state.activePrimaryPaneId (state.putSecondaryPane secondaryPane)

omit [DecidableEq H] in
/-- A secondary pane rewritten under its id: `case "close_secondary_pane"`, `case "resize_secondary_pane"` and the end of
`case "set_secondary_surface"`. -/
def rewriteSecondaryPane (secondaryPaneId : Uuid) (f : SecondaryPane W → SecondaryPane W) : WorkspaceState H W :=
  match state.secondaryPane secondaryPaneId with
  | .none => state
  | .some secondaryPane =>
    createWorkspaceState state.primaryPanes state.activePrimaryPaneId
      (state.putSecondaryPane { f secondaryPane with id := secondaryPane.id })

omit [DecidableEq H] in
def closeSecondaryPane (secondaryPaneId : Uuid) : WorkspaceState H W :=
  state.rewriteSecondaryPane secondaryPaneId fun pane => { pane with visibility := .collapsed }

omit [DecidableEq H] in
/-- `case "drop_secondary_pane"` -/
def dropSecondaryPane (secondaryPaneId : Uuid) : WorkspaceState H W :=
  match state.secondaryPane secondaryPaneId with
  | .none => state
  | .some secondaryPane =>
    createWorkspaceState (state.primaryPanes.map fun pane =>
      if pane.attachedSecondaryPaneId == .some secondaryPane.id then { pane with attachedSecondaryPaneId := .none } else pane)
      state.activePrimaryPaneId (state.secondaryPanes.filter fun pane => !(pane.id == secondaryPane.id))

omit [DecidableEq H] in
/-- `case "set_secondary_surface"` -/
def setSecondarySurface (secondaryPaneId : Uuid) (surfaceId : SecondarySurfaceId) : WorkspaceState H W :=
  match state.secondaryPane secondaryPaneId with
  | .none => state
  | .some secondaryPane =>
    if getSecondaryGroupForSurface surfaceId ≠ secondaryPane.groupId then state
    else state.rewriteSecondaryPane secondaryPaneId fun pane =>
      { pane with activeSurfaceId := surfaceId, visibility := .visible }

omit [DecidableEq H] in
def resizeSecondaryPane (secondaryPaneId : Uuid) (widthPx : W) : WorkspaceState H W :=
  state.rewriteSecondaryPane secondaryPaneId fun pane =>
    { pane with widthPx := rules.secondaryWidthPx (.some widthPx) pane.groupId }

omit [DecidableEq H] in
/-- `case "minimize_pane"` -/
def minimizePane (paneId : Uuid) : WorkspaceState H W :=
  let panes := state.primaryPanes
  let paneIndex := panes.findIdx (·.id == paneId)
  match panes[paneIndex]? with
  | .none => state
  | .some pane =>
    if pane.visibility == .minimized || (panes.filter PrimaryPane.isVisible).length ≤ 1 then state
    else
      let minimized (activePrimaryPaneId : Uuid) := createWorkspaceState (panes.map fun p =>
        if p.id == paneId then { p with visibility := .minimized } else p) activePrimaryPaneId state.secondaryPanes
      if pane.id == state.activePrimaryPaneId then
        match replacementPane (panes.drop (paneIndex + 1)) (panes.take paneIndex) with
        | .none => state
        | .some replacement => minimized replacement.id
      else minimized state.activePrimaryPaneId

omit [DecidableEq H] in
/-- `case "restore_pane"` -/
def restorePane (paneId : Uuid) : WorkspaceState H W :=
  if !state.primaryPanes.any (·.id == paneId) then state
  else createWorkspaceState (state.primaryPanes.map fun p =>
    if p.id == paneId then { p with visibility := .visible } else p) paneId state.secondaryPanes

end WorkspaceState

def workspaceReducer (state : WorkspaceState H W) (action : WorkspaceAction H W) (metrics : M) :
    Except WorkspaceDefect (WorkspaceState H W) :=
  match action with
  | .activatePane paneId => .ok (state.activatePane paneId)
  | .createPane pane afterPaneId => state.createPane rules pane afterPaneId metrics
  | .navigatePane paneId activate transition => state.navigatePane rules paneId activate transition metrics
  | .goBackPane paneId => state.traversePane rules .back paneId metrics
  | .goForwardPane paneId => state.traversePane rules .forward paneId metrics
  | .closePane paneId fallbackState => state.closePane paneId fallbackState
  | .resizePrimaryPane paneId widthPx => .ok (state.resizePrimaryPane rules paneId widthPx metrics)
  | .requestSecondarySurface primaryPaneId surfaceId secondaryPaneId =>
    .ok (state.requestSecondarySurface rules primaryPaneId surfaceId secondaryPaneId)
  | .closeSecondaryPane secondaryPaneId => .ok (state.closeSecondaryPane secondaryPaneId)
  | .dropSecondaryPane secondaryPaneId => .ok (state.dropSecondaryPane secondaryPaneId)
  | .setSecondarySurface secondaryPaneId surfaceId => .ok (state.setSecondarySurface secondaryPaneId surfaceId)
  | .resizeSecondaryPane secondaryPaneId widthPx => .ok (state.resizeSecondaryPane rules secondaryPaneId widthPx)
  | .minimizePane paneId => .ok (state.minimizePane paneId)
  | .restorePane paneId => .ok (state.restorePane paneId)

/-! ## The store -/

inductive WorkspaceStoreAction (H W : Type)
  | workspace (action : WorkspaceAction H W)
  | restoreClosedPane (paneId : Uuid)
  deriving DecidableEq, Repr

structure WorkspaceReducerState (H W : Type) where
  workspace : WorkspaceState H W
  recentlyClosedPanes : List (ClosedPaneSnapshot H W)
  deriving DecidableEq, Repr

/-- The snapshot of a pane that is to be closed, before those of other panes. -/
def withClosedPane (state : WorkspaceReducerState H W) (pane : PrimaryPane H W) (orderIndex : Nat) :
    List (ClosedPaneSnapshot H W) :=
  (⟨pane, state.workspace.getAttachedSecondaryPane pane, orderIndex⟩ ::
    state.recentlyClosedPanes.filter fun candidate => candidate.pane.id != pane.id).take maxRecentlyClosedPanes

def workspaceStoreReducer (state : WorkspaceReducerState H W) (action : WorkspaceStoreAction H W) (metrics : M) :
    Except WorkspaceDefect (WorkspaceReducerState H W) :=
  match action with
  | .restoreClosedPane paneId =>
    match state.recentlyClosedPanes.find? (·.pane.id == paneId) with
    | .none => .error .closedPaneNotFound
    | .some snapshot => do
      match ← restoreClosedPaneSnapshot rules state.workspace snapshot metrics with
      | .rejected => return state
      | .restored workspace =>
        return ⟨workspace, state.recentlyClosedPanes.filter fun candidate => candidate.pane.id != paneId⟩
  | .workspace (.closePane paneId fallbackState) =>
    let panes := state.workspace.primaryPanes
    match panes.findIdx? (·.id == paneId), panes.find? (·.id == paneId) with
    | .some orderIndex, .some pane => do
      let workspace ← workspaceReducer rules state.workspace (.closePane paneId fallbackState) metrics
      return ⟨workspace, withClosedPane state pane orderIndex⟩
    | _, _ => return state
  | .workspace action => do
    let workspace ← workspaceReducer rules state.workspace action metrics
    return { state with workspace }

end Reducer

end Nexus.Workspace
