/-
What trimming takes from the panes' histories.

A pane is a line of visits with a position in it, and a workspace's tabs are
its panes seen so. Trimming cuts every stack first. What its loop takes then it
takes from the ends of the lines, and from the active pane's when no other pane
has any left (`Thinned`).
-/
import Nexus.Lib.Zipper
import Nexus.Workspace.Schema
import Mathlib.Algebra.Ring.Nat
import Mathlib.Data.List.Forall2

namespace Nexus.Workspace

variable {H W : Type}

/-! ## Tabs -/

structure Tab (H : Type) where
  paneId : Uuid
  visits : Zipper (PaneVisit H)
  deriving DecidableEq, Repr

def PrimaryPane.visits (pane : PrimaryPane H W) : Zipper (PaneVisit H) :=
  ⟨pane.history.back, pane.currentVisit, pane.history.forward⟩

def PrimaryPane.tab (pane : PrimaryPane H W) : Tab H := ⟨pane.id, pane.visits⟩

def WorkspaceState.tabs (state : WorkspaceState H W) : List (Tab H) := state.primaryPanes.map PrimaryPane.tab

def Tab.hasHistory (tab : Tab H) : Prop := 0 < tab.visits.back.length + tab.visits.forward.length

def Tab.cut (tab : Tab H) : Tab H := { tab with visits := tab.visits.cut maxPaneHistoryStackLength }

def totalVisits (tabs : List (Tab H)) : Nat :=
  (tabs.map fun tab => tab.visits.back.length + tab.visits.forward.length).sum

structure Limits (tabs : List (Tab H)) : Prop where
  back : ∀ tab ∈ tabs, tab.visits.back.length ≤ maxPaneHistoryStackLength
  forward : ∀ tab ∈ tabs, tab.visits.forward.length ≤ maxPaneHistoryStackLength
  total : totalVisits tabs ≤ maxTotalPaneHistoryEntries

/-- Visits may be gone at the ends of the lines. -/
def TabsTrimmed (before after : List (Tab H)) : Prop :=
  List.Forall₂ (fun tab tab' => tab'.paneId = tab.paneId ∧ tab.visits.Trimmed tab'.visits) before after

theorem TabsTrimmed.refl (tabs : List (Tab H)) : TabsTrimmed tabs tabs :=
  List.forall₂_same.2 fun tab _ => ⟨rfl, Zipper.Trimmed.refl tab.visits⟩

theorem TabsTrimmed.trans {first second third : List (Tab H)} (h : TabsTrimmed first second)
    (h' : TabsTrimmed second third) : TabsTrimmed first third := by
  induction h generalizing third with
  | nil => exact h'
  | cons hab _ ih =>
    obtain ⟨c, rest, hbc, hrest, rfl⟩ := List.forall₂_cons_left_iff.1 h'
    exact .cons ⟨hbc.1.trans hab.1, hab.2.trans hbc.2⟩ (ih hrest)

theorem TabsTrimmed.exists_of_mem {before after : List (Tab H)} (h : TabsTrimmed before after) {tab' : Tab H}
    (hmem : tab' ∈ after) : ∃ tab ∈ before, tab'.paneId = tab.paneId ∧ tab.visits.Trimmed tab'.visits := by
  induction h with
  | nil => simp at hmem
  | @cons a b _ _ hab _ ih =>
    rcases List.mem_cons.1 hmem with rfl | hmem
    · exact ⟨a, List.mem_cons_self, hab⟩
    · obtain ⟨tab, htab, hrel⟩ := ih hmem
      exact ⟨tab, List.mem_cons_of_mem _ htab, hrel⟩

theorem TabsTrimmed.stretch {before after : List (Tab H)} (h : TabsTrimmed before after) :
    List.Forall₂ (fun tab tab' => tab'.visits.line <:+: tab.visits.line) before after :=
  h.imp fun _ _ hrel => hrel.2.line

theorem TabsTrimmed.total_le {before after : List (Tab H)} (h : TabsTrimmed before after) :
    totalVisits after ≤ totalVisits before := by
  unfold totalVisits
  induction h with
  | nil => exact Nat.le_refl _
  | cons hab _ ih =>
    have hle := hab.2.length_le
    simp only [List.map_cons, List.sum_cons]
    omega

theorem tabsTrimmed_cut (tabs : List (Tab H)) : TabsTrimmed tabs (tabs.map Tab.cut) :=
  List.forall₂_map_right_iff.2 (List.forall₂_same.2 fun tab _ => ⟨rfl, Zipper.trimmed_cut _ tab.visits⟩)

theorem Limits.cut_eq {tabs : List (Tab H)} (h : Limits tabs) {tab : Tab H} (hmem : tab ∈ tabs) : tab.cut = tab := by
  unfold Tab.cut
  rw [Zipper.cut_eq_self (h.back tab hmem) (h.forward tab hmem)]

theorem Limits.map_cut {tabs : List (Tab H)} (h : Limits tabs) : tabs.map Tab.cut = tabs :=
  (List.map_congr_left fun _ hmem => h.cut_eq hmem).trans (List.map_id' tabs)

theorem Limits.sublist {tabs fewer : List (Tab H)} (h : Limits tabs) (hsub : fewer.Sublist tabs) : Limits fewer where
  back tab hmem := h.back tab (hsub.subset hmem)
  forward tab hmem := h.forward tab (hsub.subset hmem)
  total := by
    refine Nat.le_trans ?_ h.total
    unfold totalVisits
    clear h
    induction hsub with
    | slnil => exact Nat.le_refl _
    | cons _ _ ih => simp only [List.map_cons, List.sum_cons]; omega
    | cons_cons _ _ ih => simp only [List.map_cons, List.sum_cons]; omega

/-! ## The loop -/

/-- What the loop does to the tabs, `activePrimaryPaneId`'s last. -/
structure Thinned (activePrimaryPaneId : Uuid) (before after : List (Tab H)) : Prop where
  trimmed : TabsTrimmed before after
  activeLast : ∀ tab ∈ before, tab.paneId = activePrimaryPaneId → tab ∉ after →
    ∀ other ∈ after, other.paneId ≠ activePrimaryPaneId → ¬ other.hasHistory

theorem Thinned.refl (activePrimaryPaneId : Uuid) (tabs : List (Tab H)) : Thinned activePrimaryPaneId tabs tabs where
  trimmed := .refl tabs
  activeLast _ hmem _ hgone := absurd hmem hgone

theorem Thinned.trans {activePrimaryPaneId : Uuid} {first second third : List (Tab H)}
    (h : Thinned activePrimaryPaneId first second) (h' : Thinned activePrimaryPaneId second third) :
    Thinned activePrimaryPaneId first third where
  trimmed := h.trimmed.trans h'.trimmed
  activeLast tab hmem hid hgone other hother hne := by
    by_cases hsecond : tab ∈ second
    · exact h'.activeLast tab hsecond hid hgone other hother hne
    · -- No pane had any left, and none gains a visit.
      obtain ⟨earlier, hearlier, hsame, htrim⟩ := h'.trimmed.exists_of_mem hother
      have hnone := h.activeLast tab hmem hid hsecond earlier hearlier (hsame ▸ hne)
      have hle := htrim.length_le
      unfold Tab.hasHistory at hnone ⊢
      omega

theorem modifyFirst_eq_some {α : Type} {p : α → Bool} {f : α → α} {l l' : List α} (h : modifyFirst p f l = .some l') :
    ∃ before a after, l = before ++ a :: after ∧ p a = true ∧ l' = before ++ f a :: after := by
  induction l generalizing l' with
  | nil => cases h
  | cons a l ih =>
    unfold modifyFirst at h
    by_cases hp : p a = true
    · rw [if_pos hp] at h
      cases h
      exact ⟨[], a, l, rfl, hp, rfl⟩
    · rw [if_neg hp] at h
      obtain ⟨rest, hrest, rfl⟩ := Option.map_eq_some_iff.1 h
      obtain ⟨before, b, after, rfl, hb, rfl⟩ := ih hrest
      exact ⟨a :: before, b, after, rfl, hb, rfl⟩

theorem modifyFirst_eq_none {α : Type} {p : α → Bool} {f : α → α} {l : List α} (h : modifyFirst p f l = .none) :
    ∀ a ∈ l, p a = false := by
  induction l with
  | nil => simp
  | cons a l ih =>
    unfold modifyFirst at h
    by_cases hp : p a = true
    · rw [if_pos hp] at h
      cases h
    · rw [if_neg hp, Option.map_eq_none_iff] at h
      exact List.forall_mem_cons.2 ⟨by simpa using hp, ih h⟩

theorem hasPaneHistory_iff {history : PaneHistory H} :
    hasPaneHistory history = true ↔ 0 < history.back.length + history.forward.length := by
  unfold hasPaneHistory
  cases history.back with
  | nil => cases history.forward <;> simp
  | cons _ _ => exact iff_of_true (by simp) (by simp only [List.length_cons]; omega)

theorem size_dropOldest {history : PaneHistory H} (h : hasPaneHistory history = true) :
    history.dropOldest.size + 1 = history.size := by
  rw [hasPaneHistory_iff] at h
  unfold PaneHistory.dropOldest PaneHistory.size
  by_cases hback : 0 < history.back.length
  · simp only [if_pos hback, List.length_tail]
    omega
  · simp only [if_neg hback, List.length_dropLast]
    omega

theorem trimmed_dropOldest (pane : PrimaryPane H W) :
    pane.visits.Trimmed (pane.withHistory PaneHistory.dropOldest).visits := by
  unfold PrimaryPane.visits PrimaryPane.withHistory PaneHistory.dropOldest
  by_cases hback : 0 < pane.history.back.length
  · simp only [if_pos hback]
    exact ⟨List.tail_suffix _, rfl, List.prefix_refl _⟩
  · simp only [if_neg hback]
    exact ⟨List.suffix_refl _, rfl, List.dropLast_prefix _⟩

theorem trimOne_eq_some {activePrimaryPaneId : Uuid} {panes panes' : List (PrimaryPane H W)}
    (h : trimOne activePrimaryPaneId panes = .some panes') :
    ∃ before pane after, panes = before ++ pane :: after ∧ hasPaneHistory pane.history = true ∧
      panes' = before ++ pane.withHistory PaneHistory.dropOldest :: after ∧
      (pane.id = activePrimaryPaneId → ∀ other ∈ panes, other.id ≠ activePrimaryPaneId →
        hasPaneHistory other.history = false) := by
  rw [trimOne, Option.orElse_eq_or, Option.or_eq_some_iff] at h
  rcases h with h | ⟨hothers, h⟩
  · obtain ⟨before, pane, after, hpanes, hpane, rfl⟩ := modifyFirst_eq_some h
    rw [Bool.and_eq_true, bne_iff_ne] at hpane
    exact ⟨before, pane, after, hpanes, hpane.2, rfl, fun hid => absurd hid hpane.1⟩
  · obtain ⟨before, pane, after, hpanes, hpane, rfl⟩ := modifyFirst_eq_some h
    refine ⟨before, pane, after, hpanes, hpane, rfl, fun _ other hother hne => ?_⟩
    have hnone := modifyFirst_eq_none hothers other hother
    rw [Bool.and_eq_false_iff] at hnone
    exact hnone.resolve_left (by simpa using hne)

theorem trimOne_eq_none {activePrimaryPaneId : Uuid} {panes : List (PrimaryPane H W)}
    (h : trimOne activePrimaryPaneId panes = .none) : totalHistory panes = 0 := by
  rw [trimOne, Option.orElse_eq_or, Option.or_eq_none_iff] at h
  obtain ⟨_, h⟩ := h
  have hnothing := modifyFirst_eq_none h
  unfold totalHistory
  refine List.sum_eq_zero_iff_forall_eq_nat.2 fun n hn => ?_
  obtain ⟨pane, hpane, rfl⟩ := List.mem_map.1 hn
  have hnone := hnothing pane hpane
  by_contra hsize
  rw [hasPaneHistory_iff.2 (Nat.pos_of_ne_zero hsize)] at hnone
  cases hnone

theorem totalHistory_trimOne {activePrimaryPaneId : Uuid} {panes panes' : List (PrimaryPane H W)}
    (h : trimOne activePrimaryPaneId panes = .some panes') : totalHistory panes' + 1 = totalHistory panes := by
  obtain ⟨before, pane, after, rfl, hpane, rfl, _⟩ := trimOne_eq_some h
  have hsize := size_dropOldest hpane
  simp only [totalHistory, List.map_append, List.map_cons, List.sum_append, List.sum_cons, PrimaryPane.withHistory]
  omega

theorem thinned_trimOne {activePrimaryPaneId : Uuid} {panes panes' : List (PrimaryPane H W)}
    (h : trimOne activePrimaryPaneId panes = .some panes') :
    Thinned activePrimaryPaneId (panes.map PrimaryPane.tab) (panes'.map PrimaryPane.tab) := by
  obtain ⟨before, pane, after, rfl, _, rfl, hlast⟩ := trimOne_eq_some h
  simp only [List.map_append, List.map_cons]
  refine ⟨?_, ?_⟩
  · exact List.rel_append (TabsTrimmed.refl _) (.cons ⟨rfl, trimmed_dropOldest pane⟩ (TabsTrimmed.refl _))
  · intro tab hmem hid hgone other hother hne
    -- The tab that is gone is the one whose pane lost a visit.
    have htab : tab = pane.tab := by
      simp only [List.mem_append, List.mem_cons, not_or] at hmem hgone
      rcases hmem with hmem | rfl | hmem
      · exact absurd hmem hgone.1
      · rfl
      · exact absurd hmem hgone.2.2
    have hkept : other ∈ (before ++ pane :: after).map PrimaryPane.tab := by
      simp only [List.map_append, List.map_cons, List.mem_append, List.mem_cons] at hother ⊢
      rcases hother with hother | rfl | hother
      · exact .inl hother
      · exact absurd (hid ▸ htab ▸ rfl) hne
      · exact .inr (.inr hother)
    obtain ⟨otherPane, hpane, rfl⟩ := List.mem_map.1 hkept
    have hnone := hlast (hid ▸ htab ▸ rfl) otherPane hpane hne
    intro hhistory
    rw [hasPaneHistory_iff.2 hhistory] at hnone
    cases hnone

theorem trimLoop_spec (activePrimaryPaneId : Uuid) (excess : Nat) (panes : List (PrimaryPane H W)) :
    Thinned activePrimaryPaneId (panes.map PrimaryPane.tab)
        ((trimLoop activePrimaryPaneId excess panes).map PrimaryPane.tab) ∧
      totalHistory (trimLoop activePrimaryPaneId excess panes) ≤ totalHistory panes - excess := by
  induction excess generalizing panes with
  | zero => exact ⟨.refl _ _, Nat.le_refl _⟩
  | succ excess ih =>
    unfold trimLoop
    cases hone : trimOne activePrimaryPaneId panes with
    | none =>
      refine ⟨.refl _ _, ?_⟩
      have hzero := trimOne_eq_none hone
      dsimp only
      omega
    | some panes' =>
      obtain ⟨hthin, htotal⟩ := ih panes'
      refine ⟨(thinned_trimOne hone).trans hthin, ?_⟩
      have hless := totalHistory_trimOne hone
      dsimp only
      omega

theorem map_trimLoop {β : Type} {f : PrimaryPane H W → β} (hf : ∀ g pane, f (pane.withHistory g) = f pane)
    (activePrimaryPaneId : Uuid) (excess : Nat) (panes : List (PrimaryPane H W)) :
    (trimLoop activePrimaryPaneId excess panes).map f = panes.map f := by
  induction excess generalizing panes with
  | zero => rfl
  | succ excess ih =>
    unfold trimLoop
    cases hone : trimOne activePrimaryPaneId panes with
    | none => rfl
    | some panes' =>
      obtain ⟨before, pane, after, rfl, _, rfl, _⟩ := trimOne_eq_some hone
      rw [ih]
      simp only [List.map_append, List.map_cons, hf]

/-! ## Trimming -/

theorem totalHistory_eq (panes : List (PrimaryPane H W)) : totalHistory panes = totalVisits (panes.map PrimaryPane.tab) := by
  unfold totalHistory totalVisits
  rw [List.map_map]
  rfl

theorem tab_withHistory_cut (pane : PrimaryPane H W) : (pane.withHistory PaneHistory.cut).tab = pane.tab.cut := rfl

theorem map_tab_cut (panes : List (PrimaryPane H W)) :
    (panes.map (PrimaryPane.withHistory PaneHistory.cut)).map PrimaryPane.tab =
      (panes.map PrimaryPane.tab).map Tab.cut := by
  simp only [List.map_map]
  exact List.map_congr_left fun pane _ => tab_withHistory_cut pane

theorem thinned_trim (state : WorkspaceState H W) :
    Thinned state.activePrimaryPaneId (state.tabs.map Tab.cut) (trimWorkspacePaneHistory state).tabs := by
  have h := (trimLoop_spec state.activePrimaryPaneId
    (totalHistory (state.primaryPanes.map (PrimaryPane.withHistory PaneHistory.cut)) - maxTotalPaneHistoryEntries)
    (state.primaryPanes.map (PrimaryPane.withHistory PaneHistory.cut))).1
  rw [map_tab_cut] at h
  exact h

/-- **Trimming sees to the limits**, whatever the histories were. -/
theorem limits_trim (state : WorkspaceState H W) : Limits (trimWorkspacePaneHistory state).tabs := by
  have hthin := thinned_trim state
  refine ⟨fun tab hmem => ?_, fun tab hmem => ?_, ?_⟩
  · obtain ⟨earlier, hearlier, _, htrim⟩ := hthin.trimmed.exists_of_mem hmem
    obtain ⟨uncut, _, rfl⟩ := List.mem_map.1 hearlier
    exact htrim.back.length_le.trans (Zipper.length_back_cut _ uncut.visits)
  · obtain ⟨earlier, hearlier, _, htrim⟩ := hthin.trimmed.exists_of_mem hmem
    obtain ⟨uncut, _, rfl⟩ := List.mem_map.1 hearlier
    exact htrim.forward.length_le.trans (Zipper.length_forward_cut _ uncut.visits)
  · have htotal := (trimLoop_spec state.activePrimaryPaneId
      (totalHistory (state.primaryPanes.map (PrimaryPane.withHistory PaneHistory.cut)) - maxTotalPaneHistoryEntries)
      (state.primaryPanes.map (PrimaryPane.withHistory PaneHistory.cut))).2
    rw [totalHistory_eq] at htotal
    unfold WorkspaceState.tabs trimWorkspacePaneHistory
    dsimp only
    omega

theorem tabsTrimmed_trim (state : WorkspaceState H W) : TabsTrimmed state.tabs (trimWorkspacePaneHistory state).tabs :=
  (tabsTrimmed_cut state.tabs).trans (thinned_trim state).trimmed

theorem tabs_trim_of_total {state : WorkspaceState H W} (h : totalVisits state.tabs ≤ maxTotalPaneHistoryEntries) :
    (trimWorkspacePaneHistory state).tabs = state.tabs.map Tab.cut := by
  have hcut : totalHistory (state.primaryPanes.map (PrimaryPane.withHistory PaneHistory.cut)) ≤
      maxTotalPaneHistoryEntries := by
    rw [totalHistory_eq, map_tab_cut]
    exact Nat.le_trans (tabsTrimmed_cut state.tabs).total_le h
  unfold WorkspaceState.tabs trimWorkspacePaneHistory
  dsimp only
  rw [Nat.sub_eq_zero_of_le hcut, trimLoop, map_tab_cut]

theorem map_trim {β : Type} {f : PrimaryPane H W → β} (hf : ∀ g pane, f (pane.withHistory g) = f pane)
    (state : WorkspaceState H W) : (trimWorkspacePaneHistory state).primaryPanes.map f = state.primaryPanes.map f := by
  unfold trimWorkspacePaneHistory
  dsimp only
  rw [map_trimLoop hf, List.map_map]
  exact List.map_congr_left fun pane _ => hf _ pane

end Nexus.Workspace
