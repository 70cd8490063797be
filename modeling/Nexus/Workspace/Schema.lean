/-
The workspace's panes: `lib/workspace/schema.ts` and the state algebra of
`lib/workspace/workspaceRestore.ts`.

A pane has a current visit and two stacks of visits, `back` with the last visit
nearest and `forward` with the first one nearest. Stacks are cut to
`maxPaneHistoryStackLength`, and while more than `maxTotalPaneHistoryEntries`
visits are stacked in all panes the oldest of the first pane that has any goes,
the active pane's last.

What a route says of two hrefs and which secondary group it allows are
parameters, and so is the arithmetic of widths. The record of primary panes and
their order are one list.
-/
import Nexus.Base
import Mathlib.Algebra.Ring.Nat
import Mathlib.Data.List.Basic

namespace Nexus.Workspace

def maxPanes : Nat := 12

def maxRecentlyClosedPanes : Nat := 5

def maxPaneHistoryStackLength : Nat := 12

def maxTotalPaneHistoryEntries : Nat := 48

/-! ## State -/

structure PaneVisit (H : Type) where
  id : Uuid
  href : H
  deriving DecidableEq, Repr

structure PaneHistory (H : Type) where
  back : List (PaneVisit H)
  forward : List (PaneVisit H)
  deriving DecidableEq, Repr

inductive PaneVisibility
  | visible
  | minimized
  deriving DecidableEq, Repr

structure PrimaryPane (H W : Type) where
  id : Uuid
  currentVisit : PaneVisit H
  primaryWidthPx : W
  visibility : PaneVisibility
  history : PaneHistory H
  attachedSecondaryPaneId : Option Uuid
  deriving DecidableEq, Repr

inductive SecondaryGroupId
  | resourceInspector
  deriving DecidableEq, Repr

/-- `PANE_SECONDARY_SURFACE_DEFINITIONS` -/
inductive SecondarySurfaceId
  | contents
  | members
  | evidence
  | context
  | connections
  | forks
  | dossier
  deriving DecidableEq, Repr

def getSecondaryGroupForSurface : SecondarySurfaceId → SecondaryGroupId
  | .contents | .members | .evidence | .context | .connections | .forks | .dossier => .resourceInspector

inductive SecondaryVisibility
  | visible
  | collapsed
  deriving DecidableEq, Repr

structure SecondaryPane (W : Type) where
  id : Uuid
  parentPrimaryPaneId : Uuid
  groupId : SecondaryGroupId
  activeSurfaceId : SecondarySurfaceId
  widthPx : W
  visibility : SecondaryVisibility
  deriving DecidableEq, Repr

structure WorkspaceState (H W : Type) where
  activePrimaryPaneId : Uuid
  /-- `primaryPaneOrder` and `primaryPanesById` -/
  primaryPanes : List (PrimaryPane H W)
  /-- `secondaryPanesById` -/
  secondaryPanes : List (SecondaryPane W)
  deriving DecidableEq, Repr

structure ClosedPaneSnapshot (H W : Type) where
  pane : PrimaryPane H W
  secondaryPane : Option (SecondaryPane W)
  orderIndex : Nat
  deriving DecidableEq, Repr

/-- What the workspace asks of hrefs and widths; `M` is the metrics of a render. -/
structure PaneRules (H W M : Type) where
  hasSamePaneRoute : H → H → Bool
  hasSamePaneResource : H → H → Bool
  paneRouteAllowsSecondaryGroup : H → SecondaryGroupId → Bool
  clampPaneWidth : W → M → W
  getDefaultPaneWidthPx : M → W
  /-- `resolveEffectiveSecondarySizing({ storedWidthPx, policy }).widthPx`, of no width for `NaN` -/
  secondaryWidthPx : Option W → SecondaryGroupId → W

/-- The errors the state algebra throws. -/
inductive WorkspaceDefect
  /-- "Workspace state must contain a primary pane" -/
  | noPrimaryPane
  /-- "Workspace state must contain a visible primary pane" -/
  | noVisiblePane
  /-- "Pane creation exceeded the workspace pane limit" -/
  | paneLimitExceeded
  /-- "Close-last action is missing its fallback workspace" -/
  | missingFallback
  /-- "Recently closed pane not found" -/
  | closedPaneNotFound
  /-- "Closed-pane restore found duplicate primary pane identity" -/
  | duplicatePrimaryPane
  /-- "Closed-pane restore found duplicate secondary pane identity" -/
  | duplicateSecondaryPane
  deriving DecidableEq, Repr

section Algebra

variable {H W : Type}

def PrimaryPane.isVisible (pane : PrimaryPane H W) : Bool := pane.visibility == .visible

namespace WorkspaceState

variable (state : WorkspaceState H W)

def getWorkspacePrimaryPane (paneId : Uuid) : Option (PrimaryPane H W) := state.primaryPanes.find? (·.id == paneId)

def secondaryPane (id : Uuid) : Option (SecondaryPane W) := state.secondaryPanes.find? (·.id == id)

/-- `[...panes, pane]` of a record: the value under its key. -/
def putSecondaryPane (pane : SecondaryPane W) : List (SecondaryPane W) :=
  pane :: state.secondaryPanes.filter fun p => !(p.id == pane.id)

def getAttachedSecondaryPane (pane : PrimaryPane H W) : Option (SecondaryPane W) :=
  pane.attachedSecondaryPaneId.bind state.secondaryPane

end WorkspaceState

/-- The secondary pane a pane keeps of a record: its attached one, when that is there and its own. -/
def keptSecondary (source : List (SecondaryPane W)) (pane : PrimaryPane H W) : Option (SecondaryPane W) :=
  pane.attachedSecondaryPaneId.bind fun id => (source.find? (·.id == id)).filter (·.parentPrimaryPaneId == pane.id)

def createWorkspaceStateFromPrimaryPanes (activePrimaryPaneId : Uuid) (primaryPanes : List (PrimaryPane H W))
    (secondaryPanesById : List (SecondaryPane W)) : WorkspaceState H W where
  activePrimaryPaneId := activePrimaryPaneId
  primaryPanes := primaryPanes.map fun pane =>
    { pane with attachedSecondaryPaneId := (keptSecondary secondaryPanesById pane).map SecondaryPane.id }
  secondaryPanes := primaryPanes.filterMap (keptSecondary secondaryPanesById)

/-- `createWorkspaceState`: the records are filtered twice. -/
def createWorkspaceState (primaryPanes : List (PrimaryPane H W)) (activePrimaryPaneId : Uuid)
    (secondaryPanesById : List (SecondaryPane W)) : WorkspaceState H W :=
  let kept := createWorkspaceStateFromPrimaryPanes activePrimaryPaneId primaryPanes secondaryPanesById
  createWorkspaceStateFromPrimaryPanes activePrimaryPaneId kept.primaryPanes kept.secondaryPanes

def createEmptyPaneHistory : PaneHistory H := ⟨[], []⟩

def hasPaneHistory (history : PaneHistory H) : Bool := !history.back.isEmpty || !history.forward.isEmpty

/-! ## Trimming -/

/-- `back.slice(-12)` and `forward.slice(0, 12)` -/
def PaneHistory.cut (history : PaneHistory H) : PaneHistory H :=
  ⟨history.back.drop (history.back.length - maxPaneHistoryStackLength), history.forward.take maxPaneHistoryStackLength⟩

def PaneHistory.size (history : PaneHistory H) : Nat := history.back.length + history.forward.length

/-- `back.shift()`, or `forward.pop()` when nothing is behind. -/
def PaneHistory.dropOldest (history : PaneHistory H) : PaneHistory H :=
  if 0 < history.back.length then { history with back := history.back.tail }
  else { history with forward := history.forward.dropLast }

def PrimaryPane.withHistory (f : PaneHistory H → PaneHistory H) (pane : PrimaryPane H W) : PrimaryPane H W :=
  { pane with history := f pane.history }

def totalHistory (panes : List (PrimaryPane H W)) : Nat := (panes.map fun pane => pane.history.size).sum

/-- Changes the first element found. -/
def modifyFirst {α : Type} (p : α → Bool) (f : α → α) : List α → Option (List α)
  | [] => .none
  | a :: l => if p a then .some (f a :: l) else (modifyFirst p f l).map (a :: ·)

/-- One round of the loop: none when no pane has a history. -/
def trimOne (activePrimaryPaneId : Uuid) (panes : List (PrimaryPane H W)) : Option (List (PrimaryPane H W)) :=
  (modifyFirst (fun pane => pane.id != activePrimaryPaneId && hasPaneHistory pane.history)
    (PrimaryPane.withHistory PaneHistory.dropOldest) panes).orElse fun _ =>
      modifyFirst (fun pane => hasPaneHistory pane.history) (PrimaryPane.withHistory PaneHistory.dropOldest) panes

/-- `while (total > 48)`: each round takes one from the total, so as many are left as it exceeds. -/
def trimLoop (activePrimaryPaneId : Uuid) : Nat → List (PrimaryPane H W) → List (PrimaryPane H W)
  | 0, panes => panes
  | excess + 1, panes =>
    match trimOne activePrimaryPaneId panes with
    | .none => panes
    | .some panes => trimLoop activePrimaryPaneId excess panes

def trimWorkspacePaneHistory (state : WorkspaceState H W) : WorkspaceState H W :=
  let panes := state.primaryPanes.map (PrimaryPane.withHistory PaneHistory.cut)
  { state with
    primaryPanes := trimLoop state.activePrimaryPaneId (totalHistory panes - maxTotalPaneHistoryEntries) panes }

def ensureActivePaneId (state : WorkspaceState H W) : Except WorkspaceDefect (WorkspaceState H W) :=
  if state.primaryPanes.isEmpty then .error .noPrimaryPane
  else if state.primaryPanes.any fun pane => pane.id == state.activePrimaryPaneId && pane.isVisible then .ok state
  else match state.primaryPanes.find? PrimaryPane.isVisible with
    | .some firstVisiblePane => .ok { state with activePrimaryPaneId := firstVisiblePane.id }
    | .none => .error .noVisiblePane

def trimAndEnsureActivePaneId (state : WorkspaceState H W) : Except WorkspaceDefect (WorkspaceState H W) :=
  ensureActivePaneId (trimWorkspacePaneHistory state)

end Algebra

/-! ## Visits -/

inductive PaneVisitTransition (H : Type)
  | replace (href : H)
  | push (visit : PaneVisit H)
  deriving DecidableEq, Repr

def PaneVisitTransition.href {H : Type} : PaneVisitTransition H → H
  | .replace href => href
  | .push visit => visit.href

inductive PaneHistoryDirection
  | back
  | forward
  deriving DecidableEq, Repr

section Rules

variable {H W M : Type} [DecidableEq H] (rules : PaneRules H W M)

def resolvePaneTransitionWidth (previousWidthPx : W) (preserveWidth : Bool) (metrics : M) : W :=
  if preserveWidth then rules.clampPaneWidth previousWidthPx metrics else rules.getDefaultPaneWidthPx metrics

/-- The attached pane a transition keeps. -/
def keepAttached (preserveResource : Bool) (attachedSecondaryPane : Option (SecondaryPane W)) (href : H) : Option Uuid :=
  if preserveResource then
    (attachedSecondaryPane.filter fun pane => rules.paneRouteAllowsSecondaryGroup href pane.groupId).map SecondaryPane.id
  else .none

def applyPaneVisitTransition (pane : PrimaryPane H W) (transition : PaneVisitTransition H) (metrics : M)
    (attachedSecondaryPane : Option (SecondaryPane W)) (preserveResource : Option Bool) : PrimaryPane H W :=
  let href := transition.href
  if pane.currentVisit.href = href then pane
  else
    let preserveResource := preserveResource.getD (rules.hasSamePaneRoute pane.currentVisit.href href)
    { pane with
      currentVisit := match transition with
        | .push visit => visit
        | .replace href => { pane.currentVisit with href }
      primaryWidthPx := resolvePaneTransitionWidth rules pane.primaryWidthPx preserveResource metrics
      attachedSecondaryPaneId := keepAttached rules preserveResource attachedSecondaryPane href
      history := match transition with
        | .push _ => ⟨pane.history.back ++ [pane.currentVisit], []⟩
        | .replace _ => pane.history }

omit [DecidableEq H] in
def traversePaneHistory (pane : PrimaryPane H W) (direction : PaneHistoryDirection) (metrics : M)
    (attachedSecondaryPane : Option (SecondaryPane W)) : Option (PrimaryPane H W) :=
  let targetVisit := match direction with
    | .back => pane.history.back.getLast?
    | .forward => pane.history.forward.head?
  targetVisit.map fun targetVisit =>
    let preserveResource := rules.hasSamePaneResource pane.currentVisit.href targetVisit.href
    { pane with
      currentVisit := targetVisit
      primaryWidthPx := resolvePaneTransitionWidth rules pane.primaryWidthPx preserveResource metrics
      attachedSecondaryPaneId := keepAttached rules preserveResource attachedSecondaryPane targetVisit.href
      visibility := .visible
      history := match direction with
        | .back => ⟨pane.history.back.dropLast, pane.currentVisit :: pane.history.forward⟩
        | .forward => ⟨pane.history.back ++ [pane.currentVisit], pane.history.forward.tail⟩ }

/-! ## Closed panes -/

inductive ClosedPaneSnapshotRestoreResult (H W : Type)
  | restored (state : WorkspaceState H W)
  | rejected
  deriving DecidableEq, Repr

omit [DecidableEq H] in
/-- The secondary pane a snapshot restores. -/
def restoredSecondaryPane (state : WorkspaceState H W) (snapshot : ClosedPaneSnapshot H W) :
    Except WorkspaceDefect (Option (SecondaryPane W)) :=
  match snapshot.secondaryPane with
  | .none => .ok .none
  | .some candidate =>
    if (state.secondaryPane candidate.id).isSome ||
        state.primaryPanes.any (fun pane => pane.attachedSecondaryPaneId == .some candidate.id) then
      .error .duplicateSecondaryPane
    else if rules.paneRouteAllowsSecondaryGroup snapshot.pane.currentVisit.href candidate.groupId then
      .ok (.some { candidate with
        parentPrimaryPaneId := snapshot.pane.id
        widthPx := rules.secondaryWidthPx (.some candidate.widthPx) candidate.groupId })
    else .ok .none

omit [DecidableEq H] in
def restoreClosedPaneSnapshot (state : WorkspaceState H W) (snapshot : ClosedPaneSnapshot H W) (metrics : M) :
    Except WorkspaceDefect (ClosedPaneSnapshotRestoreResult H W) := do
  let panes := state.primaryPanes
  if maxPanes ≤ panes.length then return .rejected
  if panes.any (fun pane => pane.id == snapshot.pane.id) then throw .duplicatePrimaryPane
  let secondaryPane ← restoredSecondaryPane rules state snapshot
  let restoredPane : PrimaryPane H W := { snapshot.pane with
    primaryWidthPx := rules.clampPaneWidth snapshot.pane.primaryWidthPx metrics
    visibility := .visible
    attachedSecondaryPaneId := secondaryPane.map SecondaryPane.id }
  let insertIndex := min panes.length snapshot.orderIndex
  let primaryPanes := panes.take insertIndex ++ restoredPane :: panes.drop insertIndex
  let secondaryPanesById := match secondaryPane with
    | .some pane => state.putSecondaryPane pane
    | .none => state.secondaryPanes
  return .restored (trimWorkspacePaneHistory
    (createWorkspaceStateFromPrimaryPanes restoredPane.id primaryPanes secondaryPanesById))

/-! ## Starting -/

omit [DecidableEq H] in
/-- `createDefaultWorkspaceState` with a canonical href, a new pane id and a new visit id. -/
def createDefaultWorkspaceState (href : H) (metrics : M) (paneId visitId : Uuid) : WorkspaceState H W where
  activePrimaryPaneId := paneId
  primaryPanes := [⟨paneId, ⟨visitId, href⟩, rules.getDefaultPaneWidthPx metrics, .visible, createEmptyPaneHistory, .none⟩]
  secondaryPanes := []

omit [DecidableEq H] in
/-- `prepareRestoredState` of a decoded session: `restricted` are the panes an
Android shell leaves out, and the ids are the default state's. -/
def prepareRestoredState (persisted : WorkspaceState H W) (metrics : M) (restricted : H → Bool) (fallbackHref : H)
    (paneId visitId : Uuid) : WorkspaceState H W :=
  let primaryPanes := (persisted.primaryPanes.filter fun pane => !restricted pane.currentVisit.href).map fun pane =>
    { pane with primaryWidthPx := rules.clampPaneWidth pane.primaryWidthPx metrics }
  match primaryPanes.filter PrimaryPane.isVisible with
  | [] => createDefaultWorkspaceState rules fallbackHref metrics paneId visitId
  | first :: rest =>
    let activePrimaryPaneId :=
      if (first :: rest).any (fun pane => pane.id == persisted.activePrimaryPaneId) then persisted.activePrimaryPaneId
      else first.id
    let secondaryPanesById := (persisted.secondaryPanes.filter fun secondaryPane =>
      primaryPanes.any fun pane => pane.id == secondaryPane.parentPrimaryPaneId).map fun secondaryPane =>
        { secondaryPane with widthPx := rules.secondaryWidthPx (.some secondaryPane.widthPx) secondaryPane.groupId }
    createWorkspaceStateFromPrimaryPanes activePrimaryPaneId primaryPanes secondaryPanesById

/-- `mergeRestoredWorkspaceWithDeepLink`; the id is the one a requested pane
gets when its own is in use. -/
def mergeRestoredWorkspaceWithDeepLink (restored deepLinkIntent : WorkspaceState H W) (metrics : M) (newPaneId : Uuid) :
    Except WorkspaceDefect (WorkspaceState H W) :=
  let restoredPanes := restored.primaryPanes
  match deepLinkIntent.primaryPanes.find? fun pane => pane.id == deepLinkIntent.activePrimaryPaneId && pane.isVisible with
  | .none => .ok restored
  | .some requestedPane =>
    let requestedHref := requestedPane.currentVisit.href
    match restoredPanes.find? fun pane => rules.hasSamePaneRoute pane.currentVisit.href requestedHref ||
        rules.hasSamePaneResource pane.currentVisit.href requestedHref with
    | .some existingPane =>
      let panes := restoredPanes.map fun pane =>
        if pane.id != existingPane.id then pane
        else { applyPaneVisitTransition rules pane (.replace requestedHref) metrics
          (restored.getAttachedSecondaryPane pane) (.some true) with visibility := .visible }
      trimAndEnsureActivePaneId (createWorkspaceState panes existingPane.id restored.secondaryPanes)
    | .none =>
      let requestedPaneId :=
        if restoredPanes.any (fun pane => pane.id == requestedPane.id) then newPaneId else requestedPane.id
      let paneToAppend : PrimaryPane H W := { requestedPane with
        id := requestedPaneId
        visibility := .visible
        attachedSecondaryPaneId := .none }
      let panes :=
        if maxPanes ≤ restoredPanes.length then restoredPanes.drop (restoredPanes.length - (maxPanes - 1))
        else restoredPanes
      trimAndEnsureActivePaneId (createWorkspaceState (panes ++ [paneToAppend]) requestedPaneId restored.secondaryPanes)

end Rules

end Nexus.Workspace
