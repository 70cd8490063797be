/-
What the segmenter's sweep has emitted, after every event and at the end.

Between two positions where the sweep stops, the open highlights are exactly
those over the codepoints there (`stackAt_of_gap`); so the segments emitted up
to an event are right for every codepoint before it (`Swept.emit`). They do not
depend on the order of the input (`segments_perm`). What is dropped keeps that
order, and with two invalid highlights it shows.
-/
import Mathlib.Data.Char
import Mathlib.Data.List.Lex
import Nexus.Highlights.Segmenter

namespace Nexus.Highlights

variable {Id : Type} [LinearOrder Id]

/-! ## What is open in a gap -/

def Highlight.Covers (h : Highlight Id) (x : ℕ) : Prop := h.start ≤ x ∧ x < h.stop

instance (h : Highlight Id) (x : ℕ) : Decidable (h.Covers x) := inferInstanceAs (Decidable (_ ∧ _))

/-- The highlights over a codepoint, the topmost one first. -/
def stackAt (vs : List (Highlight Id)) (x : ℕ) : List (Highlight Id) := sortTopmost (vs.filter (·.Covers x))

theorem mem_stackAt {vs : List (Highlight Id)} {x : ℕ} {h : Highlight Id} :
    h ∈ stackAt vs x ↔ h ∈ vs ∧ h.Covers x := by
  rw [stackAt, (sortTopmost_perm _).mem_iff, List.mem_filter, decide_eq_true_eq]

/-- The state of the sweep after the events `P`: what they have opened and not closed. -/
structure Opened (vs : List (Highlight Id)) (P : List (Event Id)) (activeMap : List (Highlight Id)) : Prop where
  mem_iff : ∀ h, h ∈ activeMap ↔ startEvent h ∈ P ∧ stopEvent h ∉ P
  ids : (activeMap.map (·.id)).Nodup

/-- The events of `vs`, in order, cut in two. -/
structure Cut (vs : List (Highlight Id)) (P R : List (Event Id)) : Prop where
  ids : (vs.map (·.id)).Nodup
  sorted : (P ++ R).Pairwise fun a b => eventKey a ≤ eventKey b
  perm : (P ++ R).Perm (eventsOf vs)

section cut
variable {vs : List (Highlight Id)} {P R : List (Event Id)} {e : Event Id} {activeMap : List (Highlight Id)}

theorem pos_le_of_eventKey {a b : Event Id} (h : eventKey a ≤ eventKey b) : a.pos ≤ b.pos := by
  rcases Prod.Lex.toLex_le_toLex.1 h with h | h
  · exact h.le
  · exact h.1.le

theorem Cut.nodup (h : Cut vs P R) : (P ++ R).Nodup := h.perm.nodup_iff.2 (nodup_eventsOf (List.Nodup.of_map _ h.ids))

theorem Cut.mem (h : Cut vs P R) (v : Highlight Id) : v ∈ vs ↔ startEvent v ∈ P ++ R ∧ stopEvent v ∈ P ++ R := by
  rw [h.perm.mem_iff, h.perm.mem_iff, mem_eventsOf, mem_eventsOf]
  exact ⟨fun hv => ⟨⟨hv, .inl rfl⟩, hv, .inr rfl⟩, fun hv => hv.1.1⟩

theorem Cut.next (h : Cut vs P (e :: R)) : Cut vs (P ++ [e]) R where
  ids := h.ids
  sorted := by simpa using h.sorted
  perm := by simpa using h.perm

theorem stackAt_of_gap (hcut : Cut vs P R) (hopen : Opened vs P activeMap) {x : ℕ} (hP : ∀ e ∈ P, e.pos ≤ x)
    (hR : ∀ e ∈ R, x < e.pos) : stackAt vs x = sortTopmost activeMap := by
  have hvs := List.Nodup.of_map _ hcut.ids
  have hcovers : ∀ v ∈ vs, (v.Covers x ↔ v ∈ activeMap) := by
    intro v hv
    obtain ⟨hstart, hstop⟩ := (hcut.mem v).1 hv
    rw [hopen.mem_iff]
    constructor
    · intro hc
      refine ⟨(List.mem_append.1 hstart).resolve_right fun hs => ?_, fun hs => ?_⟩
      · exact absurd hc.1 (Nat.not_le.2 (hR _ hs))
      · exact absurd hc.2 (Nat.not_lt.2 (hP _ hs))
    · rintro ⟨hs, hn⟩
      exact ⟨hP _ hs, hR _ ((List.mem_append.1 hstop).resolve_left hn)⟩
  have hsub : ∀ v ∈ activeMap, v ∈ vs := fun v hv => by
    have := hcut.perm.mem_iff.1 (List.mem_append_left R ((hopen.mem_iff v).1 hv).1)
    exact (mem_eventsOf.1 this).1
  refine sortTopmost_eq_of_perm (hcut.ids.sublist (List.filter_sublist.map _)) ?_
  refine (List.perm_ext_iff_of_nodup (hvs.filter _) (List.Nodup.of_map _ hopen.ids)).2 fun v => ?_
  rw [List.mem_filter, decide_eq_true_eq]
  exact ⟨fun hv => (hcovers v hv.1).1 hv.2, fun hv => ⟨hsub v hv, (hcovers v (hsub v hv)).2 hv⟩⟩

theorem Cut.stop_not_mem (hcut : Cut vs P (e :: R)) (he : e = startEvent e.highlight) : stopEvent e.highlight ∉ P := by
  intro hs
  have hle := (List.pairwise_append.1 hcut.sorted).2.2 _ hs e (by simp)
  have := pos_le_of_eventKey hle
  rw [he] at this
  exact absurd e.highlight.start_lt_stop (Nat.not_lt.2 this)

theorem Opened.step (hcut : Cut vs P (e :: R)) (hopen : Opened vs P activeMap) :
    Opened vs (P ++ [e])
      (match e.type with
        | .start => mapSet activeMap e.highlight
        | .stop => mapDelete activeMap e.highlight.id) := by
  have hmem : e ∈ eventsOf vs := hcut.perm.mem_iff.1 (by simp)
  have hnew : e ∉ P := by
    have := hcut.nodup
    simp only [List.nodup_append, List.nodup_cons] at this
    exact fun he => this.2.2 e he e (by simp) rfl
  have hsub : ∀ v ∈ activeMap, v ∈ vs := fun v hv => by
    have := hcut.perm.mem_iff.1 (List.mem_append_left _ ((hopen.mem_iff v).1 hv).1)
    exact (mem_eventsOf.1 this).1
  have hinj : ∀ v ∈ activeMap, v.id = e.highlight.id → v = e.highlight := fun v hv hid =>
    List.inj_on_of_nodup_map hcut.ids (hsub v hv) (mem_eventsOf.1 hmem).1 hid
  rcases (mem_eventsOf.1 hmem).2 with he | he
  · have hfresh : e.highlight ∉ activeMap := fun hv => hnew (he ▸ ((hopen.mem_iff _).1 hv).1)
    have hset : mapSet activeMap e.highlight = activeMap ++ [e.highlight] := by
      unfold mapSet
      rw [if_neg]
      simp only [List.any_eq_true, decide_eq_true_eq, not_exists, not_and]
      exact fun v hv hid => hfresh (hinj v hv hid ▸ hv)
    have htype : e.type = .start := by rw [he]; rfl
    rw [htype]
    dsimp only
    rw [hset]
    constructor
    · intro v
      simp only [List.mem_append, List.mem_singleton, hopen.mem_iff]
      constructor
      · rintro (⟨hs, hn⟩ | rfl)
        · refine ⟨.inl hs, fun h => ?_⟩
          rcases h with h | h
          · exact hn h
          · rw [he] at h
            simp [startEvent, stopEvent] at h
        · refine ⟨.inr he.symm, fun h => ?_⟩
          rcases h with h | h
          · exact hcut.stop_not_mem he h
          · rw [he] at h
            simp [startEvent, stopEvent] at h
      · rintro ⟨hs | hs, hn⟩
        · exact .inl ⟨hs, fun h => hn (.inl h)⟩
        · exact .inr (by rw [← hs]; rfl)
    · rw [List.map_append, List.nodup_append]
      refine ⟨hopen.ids, List.nodup_singleton _, ?_⟩
      rintro _ hv _ hw rfl
      obtain ⟨v, hv, hid⟩ := List.mem_map.1 hv
      simp only [List.map_cons, List.map_nil, List.mem_singleton] at hw
      exact hfresh (hinj v hv (hid.trans hw) ▸ hv)
  · have htype : e.type = .stop := by rw [he]; rfl
    rw [htype]
    dsimp only
    constructor
    · intro v
      simp only [mapDelete, List.mem_filter, decide_eq_true_eq, List.mem_append, List.mem_singleton]
      constructor
      · rintro ⟨hv, hne⟩
        obtain ⟨hs, hn⟩ := (hopen.mem_iff v).1 hv
        refine ⟨.inl hs, fun h => ?_⟩
        rcases h with h | h
        · exact hn h
        · exact hne (by rw [← h]; rfl)
      · rintro ⟨hs | hs, hn⟩
        · have hv : v ∈ activeMap := (hopen.mem_iff v).2 ⟨hs, fun h => hn (.inl h)⟩
          refine ⟨hv, fun hid => hn (.inr ?_)⟩
          rw [he, hinj v hv hid]
        · rw [he] at hs
          simp [startEvent, stopEvent] at hs
    · exact hopen.ids.sublist (List.filter_sublist.map _)

end cut

/-! ## The segments of the codepoints swept -/

def Segment.Contains (s : Segment Id) (x : ℕ) : Prop := s.start ≤ x ∧ x < s.stop

/-- The segment shows this stack of highlights. -/
structure Segment.Shows (s : Segment Id) (stack : List (Highlight Id)) : Prop where
  activeIds : s.activeIds = stack.map (·.id)
  topmost : stack.head?.map (fun v => (v.id, v.color)) = .some (s.topmostId, s.topmostColor)

/-- The segments are right for every codepoint before `p`. -/
structure Segmented (vs : List (Highlight Id)) (p : ℕ) (segments : List (Segment Id)) : Prop where
  sorted : segments.Pairwise fun a b => a.stop ≤ b.start
  bounds : ∀ s ∈ segments, s.start < s.stop ∧ s.stop ≤ p
  shows : ∀ s ∈ segments, ∀ x, s.Contains x → s.Shows (stackAt vs x)
  covered : ∀ x < p, stackAt vs x ≠ [] → ∃ s ∈ segments, s.Contains x
  changes : segments.Pairwise fun a b => a.stop = b.start → a.activeIds ≠ b.activeIds

section segmented
variable {vs : List (Highlight Id)} {p q : ℕ} {segments : List (Segment Id)} {segment : Segment Id}

theorem Segmented.skip (h : Segmented vs p segments) (hpq : p ≤ q) (hgap : ∀ x, p ≤ x → x < q → stackAt vs x = []) :
    Segmented vs q segments where
  sorted := h.sorted
  bounds s hs := ⟨(h.bounds s hs).1, (h.bounds s hs).2.trans hpq⟩
  shows := h.shows
  covered x hx hne := by
    by_cases hxp : x < p
    · exact h.covered x hxp hne
    · exact absurd (hgap x (by omega) hx) hne
  changes := h.changes

theorem buildSegment_eq {activeMap : List (Highlight Id)} (hne : activeMap ≠ []) :
    ∃ s, buildSegment p q activeMap = .some s ∧ s.start = p ∧ s.stop = q ∧ s.Shows (sortTopmost activeMap) := by
  unfold buildSegment
  cases hsort : sortTopmost activeMap with
  | nil => exact absurd (sortTopmost_eq_nil_iff.1 hsort) hne
  | cons topmost rest => exact ⟨_, rfl, rfl, rfl, rfl, rfl⟩

omit [LinearOrder Id] in
theorem Segment.Shows.ne_nil {stack : List (Highlight Id)} (h : segment.Shows stack) : stack ≠ [] := by
  rintro rfl
  simpa using h.topmost

theorem stackAt_eq_of_ids (hids : (vs.map (·.id)).Nodup) {x y : ℕ}
    (h : ∀ id, id ∈ (stackAt vs x).map (·.id) ↔ id ∈ (stackAt vs y).map (·.id)) : stackAt vs x = stackAt vs y := by
  have hone : ∀ {z}, ∀ v ∈ vs, (v.id ∈ (stackAt vs z).map (·.id) ↔ v.Covers z) := by
    intro z v hv
    rw [List.mem_map]
    constructor
    · rintro ⟨w, hw, hid⟩
      obtain ⟨hwv, hc⟩ := mem_stackAt.1 hw
      exact List.inj_on_of_nodup_map hids hwv hv hid ▸ hc
    · exact fun hc => ⟨v, mem_stackAt.2 ⟨hv, hc⟩, rfl⟩
  unfold stackAt
  congr 1
  refine List.filter_congr fun v hv => ?_
  rw [decide_eq_decide, ← hone v hv, ← hone v hv]
  exact h v.id

theorem Segment.Shows.of_activeIds (hids : (vs.map (·.id)).Nodup) {s : Segment Id} {x y : ℕ}
    (h : s.Shows (stackAt vs x)) (h' : segment.Shows (stackAt vs y)) (heq : s.activeIds = segment.activeIds) :
    s.Shows (stackAt vs y) := by
  rw [← stackAt_eq_of_ids hids (x := x) (y := y)]
  · exact h
  · intro id
    rw [← h.activeIds, heq, h'.activeIds]

theorem Segmented.stop_eq (hids : (vs.map (·.id)).Nodup) {init : List (Segment Id)} {last : Segment Id}
    (h : Segmented vs p (init ++ [last])) (hshows : segment.Shows (stackAt vs p))
    (heq : last.activeIds = segment.activeIds) : last.stop = p := by
  obtain ⟨hlt, hle⟩ := h.bounds last (by simp)
  by_contra hne
  have hlast := h.shows last (by simp) (last.stop - 1) ⟨by omega, by omega⟩
  have hstack := stackAt_eq_of_ids hids (x := last.stop - 1) (y := p) fun id => by
    rw [← hlast.activeIds, heq, hshows.activeIds]
  obtain ⟨v, hv⟩ := List.exists_mem_of_ne_nil _ hshows.ne_nil
  obtain ⟨hvs, hcp⟩ := mem_stackAt.1 hv
  obtain ⟨-, hcl⟩ := mem_stackAt.1 (hstack ▸ hv)
  have hhole : v.Covers last.stop := ⟨by have := hcl.1; omega, by have := hcp.2; omega⟩
  obtain ⟨s, hs, hc⟩ := h.covered last.stop (by omega) (List.ne_nil_of_mem (mem_stackAt.2 ⟨hvs, hhole⟩))
  rcases List.mem_append.1 hs with hs | hs
  · have h₁ := (List.pairwise_append.1 h.sorted).2.2 s hs last (by simp)
    have h₂ := hc.2
    omega
  · obtain rfl := List.mem_singleton.1 hs
    exact absurd hc.2 (Nat.lt_irrefl _)

theorem Segmented.append (h : Segmented vs p segments) (hpq : p < q) (hstart : segment.start = p)
    (hstop : segment.stop = q) (hshows : ∀ x, segment.Contains x → segment.Shows (stackAt vs x))
    (hchange : ∀ s ∈ segments, s.stop = p → s.activeIds ≠ segment.activeIds) :
    Segmented vs q (segments ++ [segment]) where
  sorted := by
    refine List.pairwise_append.2 ⟨h.sorted, List.pairwise_singleton _ _, fun s hs t ht => ?_⟩
    obtain rfl := List.mem_singleton.1 ht
    exact hstart ▸ (h.bounds s hs).2
  bounds s hs := by
    rcases List.mem_append.1 hs with hs | hs
    · exact ⟨(h.bounds s hs).1, (h.bounds s hs).2.trans hpq.le⟩
    · obtain rfl := List.mem_singleton.1 hs
      exact ⟨by omega, by omega⟩
  shows s hs x hx := by
    rcases List.mem_append.1 hs with hs | hs
    · exact h.shows s hs x hx
    · obtain rfl := List.mem_singleton.1 hs
      exact hshows x hx
  covered x hx hne := by
    by_cases hxp : x < p
    · obtain ⟨s, hs, hc⟩ := h.covered x hxp hne
      exact ⟨s, by simp [hs], hc⟩
    · exact ⟨segment, by simp, by omega, by omega⟩
  changes := by
    refine List.pairwise_append.2 ⟨h.changes, List.pairwise_singleton _ _, fun s hs t ht htouch => ?_⟩
    obtain rfl := List.mem_singleton.1 ht
    exact hchange s hs (htouch.trans hstart)

theorem Segmented.extend {init : List (Segment Id)} {last : Segment Id} (h : Segmented vs p (init ++ [last]))
    (hpq : p < q) (hlast : last.stop = p) (hshows : ∀ x, p ≤ x → x < q → last.Shows (stackAt vs x)) :
    Segmented vs q (init ++ [{ last with stop := q }]) where
  sorted := by
    obtain ⟨hinit, -, hlt⟩ := List.pairwise_append.1 h.sorted
    refine List.pairwise_append.2 ⟨hinit, List.pairwise_singleton _ _, fun s hs t ht => ?_⟩
    obtain rfl := List.mem_singleton.1 ht
    exact hlt s hs last (by simp)
  bounds s hs := by
    rcases List.mem_append.1 hs with hs | hs
    · exact ⟨(h.bounds s (by simp [hs])).1, (h.bounds s (by simp [hs])).2.trans hpq.le⟩
    · obtain rfl := List.mem_singleton.1 hs
      have := (h.bounds last (by simp)).1
      exact ⟨by dsimp only; omega, le_rfl⟩
  shows s hs x hx := by
    rcases List.mem_append.1 hs with hs | hs
    · exact h.shows s (by simp [hs]) x hx
    · obtain rfl := List.mem_singleton.1 hs
      have hboth : last.Shows (stackAt vs x) := by
        by_cases hxp : x < p
        · exact h.shows last (by simp) x ⟨hx.1, by omega⟩
        · exact hshows x (by omega) hx.2
      exact ⟨hboth.activeIds, hboth.topmost⟩
  covered x hx hne := by
    by_cases hxp : x < p
    · obtain ⟨s, hs, hc⟩ := h.covered x hxp hne
      rcases List.mem_append.1 hs with hs | hs
      · exact ⟨s, by simp [hs], hc⟩
      · obtain rfl := List.mem_singleton.1 hs
        exact ⟨{ s with stop := q }, by simp, hc.1, hx⟩
    · have := (h.bounds last (by simp)).1
      have hle : last.start ≤ x := by omega
      exact ⟨{ last with stop := q }, by simp, hle, hx⟩
  changes := by
    obtain ⟨hinit, -, hne⟩ := List.pairwise_append.1 h.changes
    refine List.pairwise_append.2 ⟨hinit, List.pairwise_singleton _ _, fun s hs t ht => ?_⟩
    obtain rfl := List.mem_singleton.1 ht
    exact hne s hs last (by simp)

theorem Segmented.push (hids : (vs.map (·.id)).Nodup) (h : Segmented vs p segments) (hpq : p < q)
    (hstart : segment.start = p) (hstop : segment.stop = q)
    (hshows : ∀ x, segment.Contains x → segment.Shows (stackAt vs x)) :
    Segmented vs q (pushSegment segments segment) := by
  unfold pushSegment
  rcases List.eq_nil_or_concat segments with rfl | ⟨init, last, rfl⟩
  · exact h.append hpq hstart hstop hshows (by simp)
  · rw [List.concat_eq_append] at h ⊢
    simp only [List.getLast?_append, List.getLast?_singleton, Option.some_or, List.dropLast_concat]
    have hp : segment.Contains p := ⟨by omega, by omega⟩
    split
    · rename_i heq
      have hlast := h.stop_eq hids (hshows p hp) heq
      rw [hstop]
      have hbounds := (h.bounds last (by simp)).1
      have hback := h.shows last (by simp) last.start ⟨le_rfl, hbounds⟩
      exact h.extend hpq hlast fun x hpx hxq =>
        hback.of_activeIds hids (hshows x ⟨by omega, by omega⟩) heq
    · rename_i hne
      refine h.append hpq hstart hstop hshows fun s hs htouch => ?_
      rcases List.mem_append.1 hs with hs | hs
      · have h₁ := (List.pairwise_append.1 h.sorted).2.2 s hs last (by simp)
        have h₂ := h.bounds last (by simp)
        omega
      · obtain rfl := List.mem_singleton.1 hs
        exact hne

end segmented

/-! ## The run of the sweep -/

/-- What holds of the sweep after the events `P`. -/
structure Swept (vs : List (Highlight Id)) (P : List (Event Id)) (s : Sweep Id) : Prop where
  prevPos : s.prevPos = P.getLast?.map (·.pos)
  opened : Opened vs P s.activeMap
  segmented : Segmented vs (s.prevPos.getD 0) s.segments

section swept
variable {vs : List (Highlight Id)} {P R : List (Event Id)} {e : Event Id} {s : Sweep Id}

theorem Swept.init : Swept vs [] (⟨[], [], .none⟩ : Sweep Id) where
  prevPos := rfl
  opened := ⟨by simp, by simp⟩
  segmented := ⟨by simp, by simp, by simp, by simp, by simp⟩

theorem Cut.pos_le (hcut : Cut vs P R) {a : Event Id} (ha : a ∈ P) : a.pos ≤ (P.getLast?.map (·.pos)).getD 0 := by
  rcases List.eq_nil_or_concat P with rfl | ⟨init, last, rfl⟩
  · simp at ha
  · have hsorted := (List.pairwise_append.1 hcut.sorted).1
    rw [List.concat_eq_append] at ha hsorted ⊢
    rw [List.getLast?_concat, Option.map_some, Option.getD_some]
    rcases List.mem_append.1 ha with ha | ha
    · exact pos_le_of_eventKey ((List.pairwise_append.1 hsorted).2.2 a ha last (by simp))
    · obtain rfl := List.mem_singleton.1 ha
      exact le_rfl

theorem Cut.le_pos (hcut : Cut vs P (e :: R)) : ∀ a ∈ e :: R, e.pos ≤ a.pos := by
  intro a ha
  rcases List.mem_cons.1 ha with rfl | ha
  · exact le_rfl
  · have hsorted := (List.pairwise_append.1 hcut.sorted).2.1
    exact pos_le_of_eventKey ((List.pairwise_cons.1 hsorted).1 a ha)

theorem Cut.last_le (hcut : Cut vs P (e :: R)) : (P.getLast?.map (·.pos)).getD 0 ≤ e.pos := by
  cases hlast : P.getLast? with
  | none => exact Nat.zero_le _
  | some last =>
    have hmem := List.mem_of_getLast? hlast
    exact pos_le_of_eventKey ((List.pairwise_append.1 hcut.sorted).2.2 last hmem e (by simp))

theorem Swept.emit (hcut : Cut vs P (e :: R)) (h : Swept vs P s) : Segmented vs e.pos (s.emit e.pos) := by
  have hgap : ∀ x, s.prevPos.getD 0 ≤ x → x < e.pos → stackAt vs x = sortTopmost s.activeMap := by
    intro x hx hxe
    refine stackAt_of_gap hcut h.opened (fun a ha => ?_) fun a ha => hxe.trans_le (hcut.le_pos a ha)
    exact (hcut.pos_le ha).trans (h.prevPos ▸ hx)
  have hle : s.prevPos.getD 0 ≤ e.pos := h.prevPos ▸ hcut.last_le
  have hskip (hnil : s.activeMap = []) : Segmented vs e.pos s.segments :=
    h.segmented.skip hle fun x hx hxe => by rw [hgap x hx hxe, sortTopmost_eq_nil_iff, hnil]
  unfold Sweep.emit
  cases hprev : s.prevPos with
  | none =>
    refine hskip (List.eq_nil_iff_forall_not_mem.2 fun v hv => ?_)
    have hP : P = [] := by simpa [hprev] using h.prevPos
    have := ((h.opened.mem_iff v).1 hv).1
    simp [hP] at this
  | some p =>
    rw [hprev, Option.getD_some] at hgap hle
    dsimp only
    split
    · rename_i hif
      obtain ⟨segment, hbuild, hstart, hstop, hshows⟩ := buildSegment_eq (p := p) (q := e.pos) hif.2
      rw [hbuild]
      refine Segmented.push hcut.ids (by simpa [hprev] using h.segmented) hif.1 hstart hstop fun x hx => ?_
      rw [hgap x (hstart ▸ hx.1) (hstop ▸ hx.2)]
      exact hshows
    · rename_i hif
      by_cases hnil : s.activeMap = []
      · exact hskip hnil
      · have hsame : p = e.pos := by
          by_contra hne
          exact hif ⟨by omega, hnil⟩
        simpa [hprev, hsame] using h.segmented

theorem Swept.step (hcut : Cut vs P (e :: R)) (h : Swept vs P s) : Swept vs (P ++ [e]) (s.step e) where
  prevPos := by simp [Sweep.step]
  opened := h.opened.step hcut
  segmented := h.emit hcut

theorem Swept.run (hcut : Cut vs P R) (h : Swept vs P s) : Swept vs (P ++ R) (R.foldl Sweep.step s) := by
  induction R generalizing P s with
  | nil => simpa using h
  | cons e R ih =>
    have := ih hcut.next (h.step hcut)
    rwa [List.append_assoc, List.singleton_append] at this

end swept

theorem sortEvents_cut {vs : List (Highlight Id)} (hids : (vs.map (·.id)).Nodup) :
    Cut vs [] (sortEvents (eventsOf vs)) where
  ids := hids
  sorted := sortEvents_pairwise _
  perm := sortEvents_perm _

/-- **The sweep is right at every codepoint.** -/
theorem sweep_segmented {vs : List (Highlight Id)} (hids : (vs.map (·.id)).Nodup) :
    ∃ p, Segmented vs p (sweep vs) ∧ ∀ v ∈ vs, v.stop ≤ p := by
  have hcut := sortEvents_cut hids
  have h := Swept.run hcut Swept.init
  refine ⟨_, h.segmented, fun v hv => ?_⟩
  rw [h.prevPos, List.nil_append]
  have hend : Cut vs (sortEvents (eventsOf vs)) [] := ⟨hids, by simpa using hcut.sorted, by simpa using hcut.perm⟩
  exact hend.pos_le (a := stopEvent v) (by simpa using ((hcut.mem v).1 hv).2)

theorem sweep_perm {vs vs' : List (Highlight Id)} (hids : (vs.map (·.id)).Nodup) (h : vs.Perm vs') :
    sweep vs = sweep vs' := by
  have hevents : sortEvents (eventsOf vs) = sortEvents (eventsOf vs') := by
    refine List.Perm.eq_of_pairwise (fun a b ha hb hab hba => ?_) (sortEvents_pairwise _) (sortEvents_pairwise _)
      ((sortEvents_perm _).trans ((h.flatMap_right _).trans (sortEvents_perm _).symm))
    have hkey := Prod.ext_iff.1 (toLex.injective (le_antisymm hab hba))
    have hkey' := Prod.ext_iff.1 (toLex.injective hkey.2)
    have hmem := mem_eventsOf.1 ((sortEvents_perm _).mem_iff.1 ha)
    have hmem' := mem_eventsOf.1 ((sortEvents_perm _).mem_iff.1 hb)
    have hsame := List.inj_on_of_nodup_map hids hmem.1 (h.mem_iff.2 hmem'.1) (id_eq_of_topmostKey hkey'.2)
    have htype := decide_eq_decide.1 hkey'.1
    rcases hmem.2 with h₁ | h₁ <;> rcases hmem'.2 with h₂ | h₂
    · rw [h₁, h₂, hsame]
    · rw [h₁, h₂] at htype
      simp [startEvent, stopEvent] at htype
    · rw [h₁, h₂] at htype
      simp [startEvent, stopEvent] at htype
    · rw [h₁, h₂, hsame]
  unfold sweep
  rw [hevents]

/-! ## The result -/

section result
variable {textLen : ℕ} {hs hs' : List (NormalizedHighlight Id)}

/-- A highlight of these numbers lies in the text. -/
def Valid (textLen : ℕ) (h : NormalizedHighlight Id) : Prop := ∃ v : Highlight Id, v.normalized = h ∧ v.stop ≤ textLen

/-- The valid highlights of the list over the codepoint. -/
def Covering (textLen : ℕ) (hs : List (NormalizedHighlight Id)) (x : ℕ) (v : Highlight Id) : Prop :=
  v.normalized ∈ hs ∧ v.stop ≤ textLen ∧ v.Covers x

/-- What the segments of a text say of its highlights. -/
structure Segmentation (textLen : ℕ) (hs : List (NormalizedHighlight Id)) (r : SegmentResult Id) : Prop where
  sorted : r.segments.Pairwise fun a b => a.stop ≤ b.start
  nonempty : ∀ s ∈ r.segments, s.start < s.stop
  listed : ∀ s ∈ r.segments, ∀ x, s.Contains x →
    ∃ stack : List (Highlight Id),
      (∀ v, v ∈ stack ↔ Covering textLen hs x v) ∧
        stack.Pairwise (fun a b => b.createdAtMs < a.createdAtMs ∨ a.createdAtMs = b.createdAtMs ∧ a.id < b.id) ∧
          s.Shows stack
  covered : ∀ x, (∃ s ∈ r.segments, s.Contains x) ↔ ∃ v, Covering textLen hs x v
  changes : r.segments.Pairwise fun a b => a.stop = b.start → ¬∀ id, id ∈ a.activeIds ↔ id ∈ b.activeIds
  dropped : r.droppedIds.Sublist (hs.map (·.id)) ∧ ∀ h ∈ hs, h.id ∈ r.droppedIds ↔ ¬Valid textLen h

omit [LinearOrder Id] in
theorem mem_validHighlights {v : Highlight Id} :
    v ∈ validHighlights textLen hs ↔ v.normalized ∈ hs ∧ v.stop ≤ textLen := by
  simp only [validHighlights, List.mem_filterMap, isValidHighlight_eq_some_iff]
  exact ⟨fun ⟨_, hm, rfl, hle⟩ => ⟨hm, hle⟩, fun ⟨hm, hle⟩ => ⟨_, hm, rfl, hle⟩⟩

omit [LinearOrder Id] in
theorem isNone_iff {h : NormalizedHighlight Id} : (isValidHighlight h textLen).isNone = true ↔ ¬Valid textLen h := by
  rw [Option.isNone_iff_eq_none, Option.eq_none_iff_forall_ne_some]
  simp only [Valid, ne_eq, isValidHighlight_eq_some_iff, not_exists]

omit [LinearOrder Id] in
theorem ids_validHighlights (hids : (hs.map (·.id)).Nodup) : ((validHighlights textLen hs).map (·.id)).Nodup := by
  refine hids.sublist ?_
  clear hids
  induction hs with
  | nil => exact List.Sublist.refl _
  | cons h hs ih =>
    unfold validHighlights at ih ⊢
    cases hv : isValidHighlight h textLen with
    | none =>
      rw [List.filterMap_cons_none (f := (isValidHighlight · textLen)) hv]
      exact ih.cons _
    | some v =>
      have hid : v.id = h.id := by rw [← (isValidHighlight_eq_some_iff.1 hv).1]; rfl
      rw [List.filterMap_cons_some (f := (isValidHighlight · textLen)) hv, List.map_cons, List.map_cons, hid]
      exact ih.cons_cons _

theorem segmentHighlights_eq :
    segmentHighlights (.ofInt textLen) hs = ⟨sweep (validHighlights textLen hs), droppedIds textLen hs⟩ := by
  have hlen : isNonNegativeInteger (.ofInt textLen) = .some textLen := isNonNegativeInteger_eq_some_iff.2 rfl
  unfold segmentHighlights
  rw [hlen]
  dsimp only
  split
  · rename_i hnil
    rw [hnil]
    rfl
  · rfl

theorem covering_iff {x : ℕ} {v : Highlight Id} :
    Covering textLen hs x v ↔ v ∈ stackAt (validHighlights textLen hs) x := by
  rw [mem_stackAt, mem_validHighlights, Covering, and_assoc]

theorem stackAt_pairwise {vs : List (Highlight Id)} (hids : (vs.map (·.id)).Nodup) (x : ℕ) :
    (stackAt vs x).Pairwise fun a b => b.createdAtMs < a.createdAtMs ∨ a.createdAtMs = b.createdAtMs ∧ a.id < b.id := by
  have hnodup : ((stackAt vs x).map (·.id)).Nodup :=
    ((sortTopmost_perm _).map _).nodup_iff.2 (hids.sublist (List.filter_sublist.map _))
  refine ((sortTopmost_pairwise _).and (List.pairwise_map.1 hnodup)).imp fun {a b} hab => ?_
  rcases Prod.Lex.toLex_le_toLex.1 hab.1 with h | h
  · exact .inl h
  · exact .inr ⟨h.1, lt_of_le_of_ne h.2 hab.2⟩

/-- **The segments are right**, and the dropped ids are those of the invalid highlights. -/
theorem segmentation (hids : (hs.map (·.id)).Nodup) :
    Segmentation textLen hs (segmentHighlights (.ofInt textLen) hs) := by
  have hvs : ((validHighlights textLen hs).map (·.id)).Nodup := ids_validHighlights hids
  obtain ⟨p, h, hend⟩ := sweep_segmented hvs
  rw [segmentHighlights_eq]
  refine ⟨h.sorted, fun s hs => (h.bounds s hs).1, fun s hs x hx => ?_, fun x => ⟨?_, ?_⟩, ?_, ?_, fun a ha => ?_⟩
  · exact ⟨_, fun v => covering_iff.symm, stackAt_pairwise hvs x, h.shows s hs x hx⟩
  · rintro ⟨s, hs, hx⟩
    obtain ⟨v, hv⟩ := List.exists_mem_of_ne_nil _ (h.shows s hs x hx).ne_nil
    exact ⟨v, covering_iff.2 hv⟩
  · rintro ⟨v, hv⟩
    have hmem := mem_stackAt.1 (covering_iff.1 hv)
    exact h.covered x (hmem.2.2.trans_le (hend v hmem.1)) (List.ne_nil_of_mem (covering_iff.1 hv))
  · refine h.changes.imp_of_mem fun {a b} ha hb hne htouch hsame => hne htouch ?_
    have ha' := h.shows a ha a.start ⟨le_rfl, (h.bounds a ha).1⟩
    have hb' := h.shows b hb b.start ⟨le_rfl, (h.bounds b hb).1⟩
    have hstack := stackAt_eq_of_ids hvs (x := a.start) (y := b.start) fun id => by rw [← ha'.activeIds, ← hb'.activeIds, hsame]
    rw [ha'.activeIds, hb'.activeIds, hstack]
  · exact List.filter_sublist.map _
  · rw [droppedIds, List.mem_map]
    constructor
    · rintro ⟨b, hb, hid⟩
      obtain ⟨hbs, hnone⟩ := List.mem_filter.1 hb
      exact List.inj_on_of_nodup_map hids hbs ha hid ▸ isNone_iff.1 hnone
    · exact fun hinvalid => ⟨a, List.mem_filter.2 ⟨ha, isNone_iff.2 hinvalid⟩, rfl⟩

/-- **The segments do not depend on the order of the input.** -/
theorem segments_perm (hids : (hs.map (·.id)).Nodup) (h : hs.Perm hs') :
    (segmentHighlights (.ofInt textLen) hs).segments = (segmentHighlights (.ofInt textLen) hs').segments := by
  rw [segmentHighlights_eq, segmentHighlights_eq]
  exact sweep_perm (ids_validHighlights hids) (h.filterMap _)

omit [LinearOrder Id] in
theorem droppedIds_perm (h : hs.Perm hs') : (droppedIds textLen hs).Perm (droppedIds textLen hs') := (h.filter _).map _

omit [LinearOrder Id] in
theorem mem_droppedIds {id : Id} : id ∈ droppedIds textLen hs ↔ ∃ h ∈ hs, h.id = id ∧ ¬Valid textLen h := by
  simp only [droppedIds, List.mem_map, List.mem_filter, isNone_iff]
  exact ⟨fun ⟨h, ⟨hm, hv⟩, hid⟩ => ⟨h, hm, hid, hv⟩, fun ⟨h, hm, hid, hv⟩ => ⟨h, ⟨hm, hv⟩, hid⟩⟩

omit [LinearOrder Id] in
theorem droppedIds_reverse : droppedIds textLen hs.reverse = (droppedIds textLen hs).reverse := by
  rw [droppedIds, List.filter_reverse, List.map_reverse]
  rfl

theorem eq_of_reverse_eq {α : Type} {l : List α} (hl : l.Nodup) (h : l.reverse = l) {a b : α} (ha : a ∈ l)
    (hb : b ∈ l) : a = b := by
  cases l with
  | nil => simp at ha
  | cons c l =>
    rcases List.eq_nil_or_concat l with rfl | ⟨init, last, rfl⟩
    · rw [List.mem_singleton.1 ha, List.mem_singleton.1 hb]
    · rw [List.concat_eq_append] at h hl
      simp only [List.reverse_cons, List.reverse_append, List.reverse_nil, List.nil_append, List.cons_append,
        List.cons.injEq] at h
      simp [h.1] at hl

omit [LinearOrder Id] in
theorem droppedIds_eq_of_perm (hids : (hs.map (·.id)).Nodup)
    (hone : ∀ a ∈ hs, ∀ b ∈ hs, ¬Valid textLen a → ¬Valid textLen b → a = b) (h : hs.Perm hs') :
    droppedIds textLen hs = droppedIds textLen hs' := by
  have hperm : (droppedIds textLen hs).Perm (droppedIds textLen hs') := droppedIds_perm h
  match hd : droppedIds textLen hs with
  | [] =>
    rw [hd] at hperm
    exact (List.nil_perm.1 hperm).symm
  | [a] =>
    rw [hd] at hperm
    exact List.singleton_perm.1 hperm
  | i :: j :: l =>
    obtain ⟨a, ha, hia, hva⟩ := mem_droppedIds.1 (hd ▸ List.mem_cons_self : i ∈ droppedIds textLen hs)
    obtain ⟨b, hb, hjb, hvb⟩ := mem_droppedIds.1 (hd ▸ by simp : j ∈ droppedIds textLen hs)
    have hij : i = j := by rw [← hia, ← hjb, hone a ha b hb hva hvb]
    have hnodup : (droppedIds textLen hs).Nodup := hids.sublist (List.filter_sublist.map _)
    rw [hd, hij] at hnodup
    simp at hnodup

/-- What a segmentation is to do: be right, and be the same for every order of the list. -/
def SegmentsAsDocumented (textLen : ℕ) (hs : List (NormalizedHighlight Id)) : Prop :=
  Segmentation textLen hs (segmentHighlights (.ofInt textLen) hs) ∧
    ∀ hs', hs.Perm hs' → segmentHighlights (.ofInt textLen) hs' = segmentHighlights (.ofInt textLen) hs

/-- **The segmenter is as documented exactly when at most one highlight is invalid**: the segments always are, and the
dropped ids keep the order of the input. -/
theorem segmentHighlights_asDocumented_iff (hids : (hs.map (·.id)).Nodup) :
    SegmentsAsDocumented textLen hs ↔ ∀ a ∈ hs, ∀ b ∈ hs, ¬Valid textLen a → ¬Valid textLen b → a = b := by
  constructor
  · rintro ⟨-, hsame⟩ a ha b hb hva hvb
    have hrev := congrArg (·.droppedIds) (hsame hs.reverse (List.reverse_perm hs).symm)
    simp only [segmentHighlights_eq, droppedIds_reverse] at hrev
    refine List.inj_on_of_nodup_map hids ha hb (eq_of_reverse_eq ?_ hrev ?_ ?_)
    · exact hids.sublist (List.filter_sublist.map _)
    · exact mem_droppedIds.2 ⟨a, ha, rfl, hva⟩
    · exact mem_droppedIds.2 ⟨b, hb, rfl, hvb⟩
  · intro hone
    refine ⟨segmentation hids, fun hs' h => ?_⟩
    have hsegments : (segmentHighlights (.ofInt textLen) hs).segments = (segmentHighlights (.ofInt textLen) hs').segments :=
      segments_perm hids h
    have hdropped := droppedIds_eq_of_perm hids hone h
    rw [segmentHighlights_eq, segmentHighlights_eq] at hsegments ⊢
    rw [← hdropped]
    exact congrArg (SegmentResult.mk · _) hsegments.symm

end result

/-! ## Two highlights past the end of the text -/

/-- Over the first ten codepoints, whatever the text has. -/
def tenCodepoints (id : Text) : NormalizedHighlight Text :=
  ⟨id, .ofInt 0, .ofInt 10, HighlightColor.yellow.text, .ofInt 0⟩

theorem segmentHighlights_asDocumented_iff_one :
    SegmentsAsDocumented 10 [tenCodepoints ['a'], tenCodepoints ['b']] ↔
      ∀ a ∈ [tenCodepoints ['a'], tenCodepoints ['b']], ∀ b ∈ [tenCodepoints ['a'], tenCodepoints ['b']],
        ¬Valid 10 a → ¬Valid 10 b → a = b :=
  segmentHighlights_asDocumented_iff (by decide)

/-- In a text of five codepoints both are dropped, in the order they come in. -/
theorem two_dropped :
    ¬SegmentsAsDocumented 5 [tenCodepoints ['a'], tenCodepoints ['b']] := by
  rintro ⟨-, hsame⟩
  have h := hsame _ (List.Perm.swap _ _ [])
  revert h
  decide +kernel

end Nexus.Highlights
