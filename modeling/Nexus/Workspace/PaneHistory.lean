/-
Pane histories are browser histories.

A browser pushes a visit behind the current one, rewrites it, and goes back and
forward over the line of a tab (`PaneCommand.onTabs`). The store does to its
panes what the browser does to its tabs and then trims them, so that a step
loses visits at the ends of the lines alone (`HistoryStep`). Every sequence of
commands goes through from every state a store reaches.
-/
import Nexus.Workspace.Store

namespace Nexus.Workspace

open ExceptFacts Transition

variable {H W M : Type}

/-! ## The browser -/

inductive HistoryCommand (H : Type)
  | push (activate : Bool) (visit : PaneVisit H)
  | replace (activate : Bool) (href : H)
  | back
  | forward
  deriving DecidableEq, Repr

def HistoryCommand.isMove : HistoryCommand H → Bool
  | .push _ _ | .replace _ _ => false
  | .back | .forward => true

structure PaneCommand (H : Type) where
  paneId : Uuid
  command : HistoryCommand H
  deriving DecidableEq, Repr

def PaneCommand.action (c : PaneCommand H) : WorkspaceStoreAction H W :=
  .workspace <| match c.command with
    | .push activate visit => .navigatePane c.paneId activate (.push visit)
    | .replace activate href => .navigatePane c.paneId activate (.replace href)
    | .back => .goBackPane c.paneId
    | .forward => .goForwardPane c.paneId

section Browser

variable [DecidableEq H]

/-- A visit of the current href is not pushed, and a command with nowhere to go leaves the line alone. -/
def HistoryCommand.onVisits (visits : Zipper (PaneVisit H)) : HistoryCommand H → Zipper (PaneVisit H)
  | .push _ visit => if visits.current.href = visit.href then visits else visits.push visit
  | .replace _ href => visits.replace { visits.current with href }
  | .back => visits.goBack.getD visits
  | .forward => visits.goForward.getD visits

def PaneCommand.onTab (c : PaneCommand H) (tab : Tab H) : Tab H :=
  if tab.paneId = c.paneId then { tab with visits := c.command.onVisits tab.visits } else tab

def PaneCommand.onTabs (c : PaneCommand H) (tabs : List (Tab H)) : List (Tab H) := tabs.map c.onTab

theorem onVisits_move {command : HistoryCommand H} (h : command.isMove = true)
    (visits : Zipper (PaneVisit H)) :
    (command.onVisits visits).line = visits.line ∧
      (command.onVisits visits).back.length + (command.onVisits visits).forward.length =
        visits.back.length + visits.forward.length := by
  cases command with
  | push activate visit => cases h
  | replace activate href => cases h
  | back =>
    unfold HistoryCommand.onVisits
    cases hgo : visits.goBack with
    | none => exact ⟨rfl, rfl⟩
    | some w =>
      refine ⟨Zipper.line_goBack hgo, ?_⟩
      obtain ⟨init, a, hback, rfl⟩ := Zipper.goBack_eq_some.1 hgo
      simp only [Option.getD_some, hback, List.length_append, List.length_cons, List.length_nil]
      omega
  | forward =>
    unfold HistoryCommand.onVisits
    cases hgo : visits.goForward with
    | none => exact ⟨rfl, rfl⟩
    | some w =>
      refine ⟨Zipper.line_goForward hgo, ?_⟩
      obtain ⟨a, rest, hforward, rfl⟩ := Zipper.goForward_eq_some.1 hgo
      simp only [Option.getD_some, hforward, List.length_append, List.length_cons, List.length_nil]
      omega

theorem onTab_move {c : PaneCommand H} (h : c.command.isMove = true) (tab : Tab H) :
    (c.onTab tab).visits.line = tab.visits.line ∧
      (c.onTab tab).visits.back.length + (c.onTab tab).visits.forward.length =
        tab.visits.back.length + tab.visits.forward.length := by
  unfold PaneCommand.onTab
  split
  · exact onVisits_move h tab.visits
  · exact ⟨rfl, rfl⟩

theorem totalVisits_move {c : PaneCommand H} (h : c.command.isMove = true) (tabs : List (Tab H)) :
    totalVisits (c.onTabs tabs) = totalVisits tabs := by
  unfold totalVisits PaneCommand.onTabs
  rw [List.map_map]
  exact congrArg List.sum (List.map_congr_left fun tab _ => (onTab_move h tab).2)

/-- What a command does to a workspace. -/
structure HistoryStep (c : PaneCommand H) (before after : WorkspaceState H W) : Prop where
  /-- What the browser does, but for visits lost at the two ends of a line. -/
  refines : TabsTrimmed (c.onTabs before.tabs) after.tabs
  stretch : List.Forall₂ (fun tab tab' => tab'.visits.line <:+: tab.visits.line) (c.onTabs before.tabs) after.tabs
  limits : Limits after.tabs
  /-- The active pane has lost a visit to the total limit only when no other has any left. -/
  activeLast : ∀ tab ∈ c.onTabs before.tabs, tab.paneId = after.activePrimaryPaneId → tab.cut ∉ after.tabs →
    ∀ other ∈ after.tabs, other.paneId ≠ after.activePrimaryPaneId → ¬ other.hasHistory
  /-- A command that does nothing to the lines has none trimmed. -/
  unchanged : c.onTabs before.tabs = before.tabs → after.tabs = before.tabs
  /-- Going back and forward keeps the lines, the stacks are cut and no more, and no other pane loses a visit. -/
  moves : c.command.isMove = true →
    (∀ tab, (c.onTab tab).visits.line = tab.visits.line) ∧ after.tabs = (c.onTabs before.tabs).map Tab.cut ∧
      ∀ tab ∈ before.tabs, tab.paneId ≠ c.paneId → tab ∈ after.tabs

/-! ## One command -/

theorem onTab_other {c : PaneCommand H} {tab : Tab H} (h : tab.paneId ≠ c.paneId) : c.onTab tab = tab := if_neg h

theorem historyStep_of_tabs {c : PaneCommand H} {before moved : WorkspaceState H W} (hwf : WellFormed before)
    (htabs : moved.tabs = c.onTabs before.tabs) : HistoryStep c before (trimWorkspacePaneHistory moved) := by
  have htrimmed := tabsTrimmed_trim moved
  rw [htabs] at htrimmed
  refine ⟨htrimmed, htrimmed.stretch, limits_trim moved, ?_, ?_, ?_⟩
  · intro tab hmem hid hgone
    have hcut : tab.cut ∈ moved.tabs.map Tab.cut := List.mem_map_of_mem (htabs ▸ hmem)
    exact (thinned_trim moved).activeLast tab.cut hcut hid hgone
  · intro hsame
    rw [hsame] at htabs
    rw [tabs_trim_of_total (htabs ▸ hwf.limits.total), htabs, hwf.limits.map_cut]
  · intro hmove
    have htotal : totalVisits moved.tabs ≤ maxTotalPaneHistoryEntries := by
      rw [htabs, totalVisits_move hmove]
      exact hwf.limits.total
    rw [tabs_trim_of_total htotal, htabs]
    refine ⟨fun tab => (onTab_move hmove tab).1, rfl, fun tab hmem hne => ?_⟩
    have hin := List.mem_map_of_mem (f := Tab.cut) (List.mem_map_of_mem (f := c.onTab) hmem)
    rwa [onTab_other hne, hwf.limits.cut_eq hmem] at hin

theorem historyStep_refl {c : PaneCommand H} {before : WorkspaceState H W} (hwf : WellFormed before)
    (hsame : c.onTabs before.tabs = before.tabs) : HistoryStep c before before := by
  refine ⟨?_, ?_, hwf.limits, ?_, fun _ => rfl, ?_⟩
  · rw [hsame]
    exact .refl _
  · rw [hsame]
    exact (TabsTrimmed.refl _).stretch
  · intro tab hmem _ hgone
    rw [hsame] at hmem
    rw [hwf.limits.cut_eq hmem] at hgone
    exact absurd hmem hgone
  · intro hmove
    refine ⟨fun tab => (onTab_move hmove tab).1, ?_, fun _ hmem _ => hmem⟩
    rw [hsame, hwf.limits.map_cut]

end Browser

section Commands

variable [DecidableEq H] {rules : PaneRules H W M} {state : WorkspaceState H W}

/-- What a navigation's transition is to the browser. -/
def transitionCommand (activate : Bool) : PaneVisitTransition H → HistoryCommand H
  | .push visit => .push activate visit
  | .replace href => .replace activate href

omit [DecidableEq H] in
theorem find?_pane {paneId : Uuid} {pane : PrimaryPane H W}
    (h : state.primaryPanes.find? (·.id == paneId) = .some pane) : pane ∈ state.primaryPanes ∧ pane.id = paneId :=
  ⟨List.mem_of_find?_eq_some h, by simpa using List.find?_some h⟩

omit [DecidableEq H] in
theorem WellFormed.pane_ext (hwf : WellFormed state) {p q : PrimaryPane H W} (hp : p ∈ state.primaryPanes)
    (hq : q ∈ state.primaryPanes) (hid : p.id = q.id) : p = q :=
  List.inj_on_of_nodup_map hwf.nodup hp hq hid

theorem visits_applyPaneVisitTransition (pane : PrimaryPane H W) (activate : Bool) (transition : PaneVisitTransition H)
    (metrics : M) (attached : Option (SecondaryPane W)) (preserve : Option Bool) :
    (applyPaneVisitTransition rules pane transition metrics attached preserve).visits =
      (transitionCommand activate transition).onVisits pane.visits := by
  unfold applyPaneVisitTransition
  dsimp only
  by_cases hhref : pane.currentVisit.href = transition.href
  · rw [if_pos hhref]
    cases transition with
    | push visit => exact (if_pos hhref).symm
    | replace href =>
      have hsame : href = pane.currentVisit.href := hhref.symm
      subst hsame
      rfl
  · rw [if_neg hhref]
    cases transition with
    | push visit => exact (if_neg hhref).symm
    | replace href => rfl

theorem onTabs_of_not_mem {c : PaneCommand H} (h : ∀ pane ∈ state.primaryPanes, pane.id ≠ c.paneId) :
    c.onTabs state.tabs = state.tabs := by
  unfold PaneCommand.onTabs WorkspaceState.tabs
  rw [List.map_map]
  exact List.map_congr_left fun pane hmem => onTab_other (h pane hmem)

theorem face_navigate (pane : PrimaryPane H W) (activate : Bool) (transition : PaneVisitTransition H) (metrics : M)
    (attached : Option (SecondaryPane W)) (preserve : Option Bool) :
    ({ applyPaneVisitTransition rules pane transition metrics attached preserve with
        visibility := if activate then .visible else pane.visibility } : PrimaryPane H W).face =
      (pane.id, if activate then .visible else pane.visibility) := by
  unfold PrimaryPane.face
  dsimp only
  rw [applyPaneVisitTransition_id]

theorem active_navigate (hwf : WellFormed state) {paneId : Uuid} {activate : Bool} {transition : PaneVisitTransition H}
    {metrics : M} (hany : ∃ pane ∈ state.primaryPanes, (pane.id == paneId) = true) :
    (if activate then paneId else state.activePrimaryPaneId, PaneVisibility.visible) ∈
      (state.primaryPanes.map fun p =>
        if p.id == paneId then
          { applyPaneVisitTransition rules p transition metrics (state.getAttachedSecondaryPane p)
              (.some (rules.hasSamePaneResource p.currentVisit.href transition.href)) with
            visibility := if activate then .visible else p.visibility }
        else p).map PrimaryPane.face := by
  rw [List.map_map]
  cases activate with
  | true =>
    obtain ⟨pane, hmem, hid⟩ := hany
    refine List.mem_map.2 ⟨pane, hmem, ?_⟩
    rw [Function.comp_apply, if_pos hid, face_navigate pane true, beq_iff_eq.1 hid]
    rfl
  | false =>
    obtain ⟨pane, hmem, hface⟩ := List.mem_map.1 hwf.active
    refine List.mem_map.2 ⟨pane, hmem, ?_⟩
    rw [Function.comp_apply]
    split
    · rw [face_navigate pane false]
      exact hface
    · exact hface

variable (rules) in
theorem navigatePane_step (hwf : WellFormed state) (paneId : Uuid) (activate : Bool) (transition : PaneVisitTransition H)
    (metrics : M) : ∃ state', state.navigatePane rules paneId activate transition metrics = .ok state' ∧
      HistoryStep ⟨paneId, transitionCommand activate transition⟩ state state' := by
  unfold WorkspaceState.navigatePane
  dsimp only
  split
  next hany =>
    rw [Bool.not_eq_true', List.any_eq_false] at hany
    refine ⟨state, rfl, historyStep_refl hwf (onTabs_of_not_mem fun pane hmem hid => ?_)⟩
    exact hany pane hmem (beq_iff_eq.2 hid)
  next hany =>
    rw [Bool.not_eq_true', Bool.not_eq_false, List.any_eq_true] at hany
    refine ⟨_, ensureActive_of_active ?_, historyStep_of_tabs hwf ?_⟩
    · rw [faces_trim, faces_createWorkspaceState]
      exact active_navigate hwf hany
    · rw [tabs_createWorkspaceState]
      unfold PaneCommand.onTabs WorkspaceState.tabs
      rw [List.map_map, List.map_map]
      refine List.map_congr_left fun pane _ => ?_
      rw [Function.comp_apply, Function.comp_apply]
      by_cases hid : pane.id = paneId
      · rw [if_pos (beq_iff_eq.2 hid), PaneCommand.onTab, if_pos (show pane.tab.paneId = paneId from hid)]
        unfold PrimaryPane.tab
        congr 1
        · exact applyPaneVisitTransition_id rules pane transition metrics _ _
        · exact visits_applyPaneVisitTransition pane activate transition metrics _ _
      · rw [if_neg (by simpa using hid), onTab_other (show pane.tab.paneId ≠ paneId from hid)]

def directionCommand : PaneHistoryDirection → HistoryCommand H
  | .back => .back
  | .forward => .forward

variable (rules) in
theorem visits_traversePaneHistory (pane : PrimaryPane H W) (direction : PaneHistoryDirection) (metrics : M)
    (attached : Option (SecondaryPane W)) :
    ((traversePaneHistory rules pane direction metrics attached).map PrimaryPane.visits).getD pane.visits =
      (directionCommand direction).onVisits pane.visits := by
  cases direction with
  | back =>
    unfold traversePaneHistory
    rw [Option.map_map]
    rfl
  | forward =>
    unfold traversePaneHistory
    rw [Option.map_map]
    rfl

omit [DecidableEq H] in
theorem face_traversePaneHistory {pane traversed : PrimaryPane H W} {direction : PaneHistoryDirection} {metrics : M}
    {attached : Option (SecondaryPane W)}
    (h : traversePaneHistory rules pane direction metrics attached = .some traversed) :
    traversed.face = (pane.id, .visible) := by
  obtain ⟨_, _, rfl⟩ := Option.map_eq_some_iff.1 h
  rfl

variable (rules) in
theorem traversePane_step (hwf : WellFormed state) (direction : PaneHistoryDirection) (paneId : Uuid) (metrics : M) :
    ∃ state', state.traversePane rules direction paneId metrics = .ok state' ∧
      HistoryStep ⟨paneId, directionCommand direction⟩ state state' := by
  unfold WorkspaceState.traversePane
  dsimp only
  split
  next hnone =>
    refine ⟨state, rfl, historyStep_refl hwf (onTabs_of_not_mem fun pane hmem hid => ?_)⟩
    exact List.find?_eq_none.1 hnone pane hmem (beq_iff_eq.2 hid)
  next pane hfind =>
    obtain ⟨hpane, hid⟩ := find?_pane hfind
    have hvisits := visits_traversePaneHistory rules pane direction metrics (state.getAttachedSecondaryPane pane)
    split
    next hnone =>
      refine ⟨state, rfl, historyStep_refl hwf ?_⟩
      rw [hnone] at hvisits
      unfold PaneCommand.onTabs WorkspaceState.tabs
      rw [List.map_map]
      refine List.map_congr_left fun p hp => ?_
      rw [Function.comp_apply]
      by_cases hpid : p.id = paneId
      · obtain rfl := hwf.pane_ext hp hpane (hpid.trans hid.symm)
        rw [PaneCommand.onTab, if_pos (show p.tab.paneId = paneId from hpid)]
        exact congrArg (Tab.mk p.id) hvisits.symm
      · exact onTab_other hpid
    next traversed hto =>
      have hface := face_traversePaneHistory hto
      rw [hto] at hvisits
      refine ⟨_, ensureActive_of_active ?_, historyStep_of_tabs hwf ?_⟩
      · rw [faces_trim, faces_createWorkspaceState, List.map_map]
        refine List.mem_map.2 ⟨pane, hpane, ?_⟩
        rw [Function.comp_apply, if_neg (by simpa using hid), hface, hid]
        rfl
      · rw [tabs_createWorkspaceState]
        unfold PaneCommand.onTabs WorkspaceState.tabs
        rw [List.map_map, List.map_map]
        refine List.map_congr_left fun p hp => ?_
        rw [Function.comp_apply, Function.comp_apply]
        by_cases hpid : p.id = paneId
        · obtain rfl := hwf.pane_ext hp hpane (hpid.trans hid.symm)
          rw [if_neg (by simpa using hpid), PaneCommand.onTab, if_pos (show p.tab.paneId = paneId from hpid)]
          unfold PrimaryPane.tab
          congr 1
          exact congrArg Prod.fst hface
        · rw [if_pos (by simpa using hpid), onTab_other (show p.tab.paneId ≠ paneId from hpid)]

variable (rules) in
theorem command_step {state : WorkspaceReducerState H W} (hwf : WellFormed state.workspace) (c : PaneCommand H)
    (metrics : M) : ∃ workspace, workspaceStoreReducer rules state c.action metrics = .ok { state with workspace } ∧
      HistoryStep c state.workspace workspace := by
  obtain ⟨paneId, command⟩ := c
  cases command with
  | push activate visit =>
    obtain ⟨workspace, hok, hstep⟩ := navigatePane_step rules hwf paneId activate (.push visit) metrics
    exact ⟨workspace, bind_eq_ok.2 ⟨workspace, hok, rfl⟩, hstep⟩
  | replace activate href =>
    obtain ⟨workspace, hok, hstep⟩ := navigatePane_step rules hwf paneId activate (.replace href) metrics
    exact ⟨workspace, bind_eq_ok.2 ⟨workspace, hok, rfl⟩, hstep⟩
  | back =>
    obtain ⟨workspace, hok, hstep⟩ := traversePane_step rules hwf .back paneId metrics
    exact ⟨workspace, bind_eq_ok.2 ⟨workspace, hok, rfl⟩, hstep⟩
  | forward =>
    obtain ⟨workspace, hok, hstep⟩ := traversePane_step rules hwf .forward paneId metrics
    exact ⟨workspace, bind_eq_ok.2 ⟨workspace, hok, rfl⟩, hstep⟩

end Commands

/-! ## Runs -/

variable [DecidableEq H] {rules : PaneRules H W M}

/-- The store takes one command after the other, and each does what a command does. -/
def HistoryRun (rules : PaneRules H W M) :
    WorkspaceReducerState H W → List (PaneCommand H × M) → WorkspaceReducerState H W → Prop
  | state, [], final => final = state
  | state, (c, metrics) :: commands, final => ∃ next, workspaceStoreReducer rules state c.action metrics = .ok next ∧
      HistoryStep c state.workspace next.workspace ∧ HistoryRun rules next commands final

omit [DecidableEq H] in
variable (rules) in
theorem admissible_command (c : PaneCommand H) (state : WorkspaceReducerState H W) : c.action.Admissible rules state := by
  obtain ⟨paneId, command⟩ := c
  cases command <;> trivial

theorem exists_historyRun {state : WorkspaceReducerState H W} (h : (workspaceStore rules).Reachable state)
    (commands : List (PaneCommand H × M)) :
    ∃ final, HistoryRun rules state commands final ∧ (workspaceStore rules).Reachable final := by
  induction commands generalizing state with
  | nil => exact ⟨state, rfl, h⟩
  | cons label commands ih =>
    obtain ⟨c, metrics⟩ := label
    obtain ⟨workspace, hok, hstep⟩ := command_step rules (reachable_wellFormed h) c metrics
    have hnext : (workspaceStore rules).Reachable { state with workspace } :=
      h.step (e := (c.action, metrics)) ⟨admissible_command rules c state, hok⟩
    obtain ⟨final, hrun, hfinal⟩ := ih hnext
    exact ⟨final, ⟨_, hok, hstep, hrun⟩, hfinal⟩

theorem trimmed_back_forward {z w : Zipper (PaneVisit H)} {n : Nat} (hn : 0 < n) (h : z.goBack = .some w) :
    z.Trimmed ((HistoryCommand.onVisits (w.cut n) .forward).cut n) := by
  have hahead : ∃ v, (w.cut n).goForward = .some v := by
    obtain ⟨init, a, _, rfl⟩ := Zipper.goBack_eq_some.1 h
    obtain ⟨m, rfl⟩ := Nat.exists_eq_succ_of_ne_zero (Nat.pos_iff_ne_zero.1 hn)
    exact ⟨_, rfl⟩
  obtain ⟨v, hv⟩ := hahead
  have htrimmed := (Zipper.trimmed_cut n w).goForward (Zipper.goForward_goBack h) hv
  rw [HistoryCommand.onVisits, hv, Option.getD_some]
  exact htrimmed.trans (Zipper.trimmed_cut n v)

theorem back_forward {state : WorkspaceReducerState H W} (hwf : WellFormed state.workspace) {tab : Tab H}
    (hmem : tab ∈ state.workspace.tabs) {back : Zipper (PaneVisit H)} (hback : tab.visits.goBack = .some back)
    {moved returned : WorkspaceState H W} (hmoved : HistoryStep ⟨tab.paneId, .back⟩ state.workspace moved)
    (hreturned : HistoryStep ⟨tab.paneId, .forward⟩ moved returned) :
    TabsTrimmed state.workspace.tabs returned.tabs := by
  obtain ⟨_, hfirst, _⟩ := hmoved.moves rfl
  obtain ⟨_, hsecond, _⟩ := hreturned.moves rfl
  rw [hsecond, hfirst]
  unfold PaneCommand.onTabs TabsTrimmed
  rw [List.map_map, List.map_map, List.map_map]
  refine List.forall₂_map_right_iff.2 (List.forall₂_same.2 fun t ht => ?_)
  simp only [Function.comp_apply]
  by_cases hid : t.paneId = tab.paneId
  · have hnodup := hwf.nodup
    rw [ids_eq_tabs] at hnodup
    obtain rfl := List.inj_on_of_nodup_map hnodup ht hmem hid
    have hstep : PaneCommand.onTab ⟨t.paneId, .back⟩ t = { t with visits := back } := by
      rw [PaneCommand.onTab, if_pos rfl, HistoryCommand.onVisits, hback]
      rfl
    rw [hstep, PaneCommand.onTab, if_pos (show (Tab.cut ⟨t.paneId, back⟩).paneId = t.paneId from rfl)]
    exact ⟨rfl, trimmed_back_forward (by decide) hback⟩
  · have hcut : t.cut.paneId ≠ (PaneCommand.mk tab.paneId (HistoryCommand.forward : HistoryCommand H)).paneId := hid
    rw [onTab_other (c := ⟨tab.paneId, .back⟩) hid, onTab_other hcut]
    exact ⟨rfl, (Zipper.trimmed_cut _ _).trans (Zipper.trimmed_cut _ _)⟩

/-- **Pane histories refine browser histories**: from every state the store reaches every sequence of pushes,
replacements and moves goes through, each command doing to the lines what the browser does but for visits lost at their
ends, and a move back can be taken forward again. -/
theorem pane_history_refines_zipper {state : WorkspaceReducerState H W} (h : (workspaceStore rules).Reachable state) :
    (∀ commands : List (PaneCommand H × M),
      ∃ final, HistoryRun rules state commands final ∧ (workspaceStore rules).Reachable final) ∧
    ∀ tab ∈ state.workspace.tabs, tab.visits.goBack.isSome → ∀ metrics metrics' : M, ∃ moved returned,
      workspaceStoreReducer rules state (PaneCommand.action ⟨tab.paneId, .back⟩) metrics = .ok moved ∧
      workspaceStoreReducer rules moved (PaneCommand.action ⟨tab.paneId, .forward⟩) metrics' = .ok returned ∧
      TabsTrimmed state.workspace.tabs returned.workspace.tabs := by
  refine ⟨exists_historyRun h, fun tab hmem hback metrics metrics' => ?_⟩
  obtain ⟨back, hback⟩ := Option.isSome_iff_exists.1 hback
  have hwf := reachable_wellFormed h
  obtain ⟨moved, hmoved, hfirst⟩ := command_step rules hwf ⟨tab.paneId, .back⟩ metrics
  have hnext : (workspaceStore rules).Reachable { state with workspace := moved } :=
    h.step (e := (PaneCommand.action ⟨tab.paneId, .back⟩, metrics)) ⟨admissible_command rules ⟨tab.paneId, .back⟩ state, hmoved⟩
  obtain ⟨returned, hreturned, hsecond⟩ := command_step rules (reachable_wellFormed hnext) ⟨tab.paneId, .forward⟩ metrics'
  exact ⟨_, _, hmoved, hreturned, back_forward hwf hmem hback hfirst hsecond⟩

/-- Every pane on a route of its own, and one width. -/
def plainRules : PaneRules Nat Unit Unit where
  hasSamePaneRoute href href' := href == href'
  hasSamePaneResource href href' := href == href'
  paneRouteAllowsSecondaryGroup _ _ := true
  clampPaneWidth width _ := width
  getDefaultPaneWidthPx _ := ()
  secondaryWidthPx _ _ := ()

/-- A default workspace after one push. -/
def browsedStore : WorkspaceReducerState Nat Unit :=
  ⟨⟨1, [⟨1, ⟨3, 20⟩, (), .visible, ⟨[⟨2, 10⟩], []⟩, .none⟩], []⟩, []⟩

theorem reachable_browsedStore : (workspaceStore plainRules).Reachable browsedStore := by
  have hinit : (workspaceStore plainRules).Reachable ⟨createDefaultWorkspaceState plainRules 10 () 1 2, []⟩ :=
    .init ⟨.default 10 () 1 2, rfl⟩
  have hadmissible := admissible_command plainRules ⟨1, .push true ⟨3, 20⟩⟩
    ⟨createDefaultWorkspaceState plainRules 10 () 1 2, []⟩
  exact hinit.step (e := (PaneCommand.action ⟨1, .push true ⟨3, 20⟩⟩, ())) ⟨hadmissible, by decide⟩

theorem pane_history_refines_zipper_browsed :
    (∃ final, HistoryRun plainRules browsedStore [(⟨1, .back⟩, ()), (⟨1, .push true ⟨4, 30⟩⟩, ())] final ∧
      (workspaceStore plainRules).Reachable final) ∧
    ∃ moved returned,
      workspaceStoreReducer plainRules browsedStore (PaneCommand.action ⟨1, .back⟩) () = .ok moved ∧
      workspaceStoreReducer plainRules moved (PaneCommand.action ⟨1, .forward⟩) () = .ok returned ∧
      TabsTrimmed browsedStore.workspace.tabs returned.workspace.tabs := by
  obtain ⟨hruns, hreturn⟩ := pane_history_refines_zipper reachable_browsedStore
  exact ⟨hruns _, hreturn ⟨1, ⟨[⟨2, 10⟩], ⟨3, 20⟩, []⟩⟩ (by decide) (by decide) () ()⟩

end Nexus.Workspace
