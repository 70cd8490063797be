/-
What publication writes: the citation edges of the message, one for every
citation, and the retrievals that point back to them.
-/
import Nexus.Citations.CanonicalFacts
import Nexus.Citations.Publication

namespace Nexus.Citations
open Relational Graph ExceptFacts

/-- The citation edges of the run's answer. -/
def citationEdges (s : PublicationState) : List ResourceEdge :=
  s.edges.rows.filter fun e => e.userId == s.ownerUserId && e.source == s.messageRef && e.origin == .citation

/-- A target a citation may have: one the owner sees, or a snapshot. -/
def Citable (w : GraphView) (target : ResourceRef) : Prop :=
  target.scheme = .externalSnapshot ∨ w.visible target = true

/-- The identifiers the inserts draw are new. -/
structure FreshIds (newId : Nat → Uuid) (s : Edges) : Prop where
  injective : Function.Injective newId
  unused : ∀ e ∈ s.rows, ∀ i, e.id ≠ newId i

section Replace

variable {w : GraphView} {newId : Nat → Uuid} {viewerId : Uuid} {source : ResourceRef} {s : Edges}

/-! ## One edge -/

theorem validateEdgeInput_citation {c : CitationInput} (hsource : source.scheme = .message) (htarget : c.target ≠ source)
    (hordinal : 1 ≤ c.ordinal) : validateEdgeInput w (citationEdge source c) = .ok () ↔ Citable w c.target := by
  have hshape : validateEdgeShape (citationEdge source c) = .ok () := by
    have hne : ¬ source = c.target := fun h => htarget h.symm
    have hpos : ¬ ((c.ordinal : Int) < 1) := by omega
    simp [validateEdgeShape, validateCitation, citationEdge, keyLengthOk, resourceCanBeCitationOutputSource, hsource,
      capabilityForScheme, hne, hpos]
  have hlink : (citationEdge source c).isNeutralLinkShape = false := by
    simp [EdgeCreate.isNeutralLinkShape, citationEdge]
  rw [validateEdgeInput, hshape]
  simp only [bind, Except.bind, hlink, Bool.false_eq_true, false_and, if_false]
  by_cases hexternal : c.target.scheme = .externalSnapshot
  · simp [citationEdge, hexternal, Citable, pure, Except.pure]
  · by_cases hvisible : w.visible c.target = true
    · simp [citationEdge, hexternal, Citable, assertRefVisible, hvisible, pure, Except.pure]
    · simp [citationEdge, hexternal, Citable, assertRefVisible, hvisible]

theorem checks_citationEdge {c : CitationInput} (hsource : source.scheme = .message) (htarget : c.target ≠ source)
    (hordinal : 1 ≤ c.ordinal) : (citationEdge source c).checks = true := by
  have hne : source ≠ c.target := fun h => htarget h.symm
  have hpos : 1 ≤ (c.ordinal : Int) := by omega
  simp [EdgeCreate.checks, citationEdge, hsource, hne, hpos, unordered]

theorem clash_citationEdge (source : ResourceRef) (viewerId id : Uuid) (c : CitationInput) (e : ResourceEdge) :
    let row : ResourceEdge := ⟨citationEdge source c, id, viewerId⟩
    (row.clash e = true → e.userId = viewerId ∧ e.source = source ∧ e.ordinal = .some (c.ordinal : Int)) ∧
      (e.clash row = true → e.userId = viewerId ∧ e.source = source ∧ e.ordinal = .some (c.ordinal : Int)) := by
  constructor
  · intro h
    simp only [ResourceEdge.clash, EdgeCreate.isNeutralLinkShape, EdgeCreate.isStanceShape, EdgeCreate.bare, citationEdge,
      ResourceEdge.sameSource, ResourceEdge.samePair] at h
    simp at h
    exact ⟨h.2.1.symm, h.2.2.symm, h.1.symm⟩
  · intro h
    simp only [ResourceEdge.clash, EdgeCreate.isNeutralLinkShape, EdgeCreate.isStanceShape, EdgeCreate.bare, citationEdge,
      ResourceEdge.sameSource, ResourceEdge.samePair] at h
    simp at h
    grind

/-! ## The edges of an answer -/

/-- The inputs of edges: numbered apart, from 1, about something else. -/
structure Insertable (source : ResourceRef) (inputs : List CitationInput) : Prop where
  target : ∀ c ∈ inputs, c.target ≠ source
  positive : ∀ c ∈ inputs, 1 ≤ c.ordinal
  distinct : (inputs.map CitationInput.ordinal).Nodup

theorem Insertable.tail {c : CitationInput} {inputs : List CitationInput} (h : Insertable source (c :: inputs)) :
    Insertable source inputs where
  target d hd := h.target d (List.mem_cons_of_mem _ hd)
  positive d hd := h.positive d (List.mem_cons_of_mem _ hd)
  distinct := (List.nodup_cons.1 h.distinct).2

theorem validateMembers_citations (hsource : source.scheme = .message) {inputs : List CitationInput}
    (h : Insertable source inputs) :
    validateMembers w source .citation (inputs.map (citationEdge source)) = .ok () ↔
      ∀ c ∈ inputs, Citable w c.target := by
  induction inputs with
  | nil => simp [validateMembers]
  | cons c inputs ih =>
    have hone := validateEdgeInput_citation (w := w) hsource (h.target c List.mem_cons_self)
      (h.positive c List.mem_cons_self)
    rw [List.map_cons, validateMembers, if_neg (by simp [citationEdge]), bind_eq_ok, List.forall_mem_cons, ← ih h.tail,
      ← hone]
    exact ⟨fun ⟨_, hfirst, hrest⟩ => ⟨hfirst, hrest⟩, fun ⟨hfirst, hrest⟩ => ⟨(), hfirst, hrest⟩⟩

theorem distinctMembers_citations {inputs : List CitationInput} {seenPairs : List ResourceRef} {seenOrdinals : List Int}
    (hdistinct : (inputs.map CitationInput.ordinal).Nodup)
    (hseen : ∀ c ∈ inputs, (c.ordinal : Int) ∉ seenOrdinals) :
    distinctMembers seenPairs seenOrdinals (inputs.map (citationEdge source)) =
      .ok (inputs.map (citationEdge source)) := by
  induction inputs generalizing seenOrdinals with
  | nil => rfl
  | cons c inputs ih =>
    rw [List.map_cons, List.nodup_cons] at hdistinct
    rw [List.map_cons, distinctMembers]
    show (if (c.ordinal : Int) ∈ seenOrdinals then _ else _) = _
    rw [if_neg (hseen c List.mem_cons_self), ih hdistinct.2]
    · rfl
    · intro d hd
      rw [List.mem_cons, not_or]
      refine ⟨fun heq => hdistinct.1 ?_, hseen d (List.mem_cons_of_mem _ hd)⟩
      rw [← Int.ofNat_inj.1 heq]
      exact List.mem_map_of_mem hd

/-- The rows a list of citations becomes. -/
def citationRows (newId : Nat → Uuid) (viewerId : Uuid) (source : ResourceRef) (i : Nat) (inputs : List CitationInput) :
    List ResourceEdge :=
  inputs.mapIdx fun j c => ⟨citationEdge source c, newId (i + j), viewerId⟩

theorem citationRows_cons (i : Nat) (c : CitationInput) (inputs : List CitationInput) :
    citationRows newId viewerId source i (c :: inputs) =
      ⟨citationEdge source c, newId i, viewerId⟩ :: citationRows newId viewerId source (i + 1) inputs := by
  simp [citationRows, List.mapIdx_cons, Nat.add_assoc, Nat.add_comm 1]

theorem exists_insertRows (viewerId : Uuid) (hsource : source.scheme = .message) (hinjective : Function.Injective newId)
    {inputs : List CitationInput} (h : Insertable source inputs) {i : Nat}
    (hids : ∀ e ∈ s.rows, ∀ j, i ≤ j → e.id ≠ newId j)
    (hordinals : ∀ e ∈ s.rows, e.userId = viewerId → e.source = source → ∀ c ∈ inputs,
      e.ordinal ≠ .some (c.ordinal : Int)) :
    ∃ t, insertRows viewerId newId s i (inputs.map (citationEdge source)) = .ok t ∧
      t.rows = (citationRows newId viewerId source i inputs).reverse ++ s.rows := by
  induction inputs generalizing s i with
  | nil => exact ⟨s, rfl, rfl⟩
  | cons c inputs ih =>
    have hclash : ∀ e ∈ s.rows, edgeSchema.clash ⟨citationEdge source c, newId i, viewerId⟩ e = false ∧
        edgeSchema.clash e ⟨citationEdge source c, newId i, viewerId⟩ = false := by
      intro e he
      have hone := clash_citationEdge source viewerId (newId i) c e
      constructor
      · by_contra hc
        obtain ⟨huser, hsrc, hord⟩ := hone.1 (Bool.not_eq_false _ ▸ hc)
        exact hordinals e he huser hsrc c List.mem_cons_self hord
      · by_contra hc
        obtain ⟨huser, hsrc, hord⟩ := hone.2 (Bool.not_eq_false _ ▸ hc)
        exact hordinals e he huser hsrc c List.mem_cons_self hord
    obtain ⟨u, hinsert, hu⟩ := Store.exists_insert? (s := s) (a := ⟨citationEdge source c, newId i, viewerId⟩)
      (checks_citationEdge hsource (h.target c List.mem_cons_self) (h.positive c List.mem_cons_self))
      (fun e he => hids e he i (Nat.le_refl i)) hclash
    obtain ⟨t, ht, hrows⟩ := @ih u h.tail (i + 1)
      (by
        intro e he j hj
        rw [hu] at he
        rcases List.mem_cons.1 he with rfl | he
        · intro heq
          have := hinjective heq
          omega
        · exact hids e he j (by omega))
      (by
        intro e he huser hsrc d hd
        rw [hu] at he
        rcases List.mem_cons.1 he with rfl | he
        · intro heq
          have hne : c.ordinal ≠ d.ordinal := fun heq => (List.nodup_cons.1 h.distinct).1 (by
            rw [heq]
            exact List.mem_map_of_mem hd)
          exact hne (Int.ofNat_inj.1 (Option.some.inj heq))
        · exact hordinals e he huser hsrc d (List.mem_cons_of_mem _ hd))
    refine ⟨t, ?_, ?_⟩
    · rw [List.map_cons, insertRows]
      exact bind_eq_ok.2 ⟨_, flushInsert_eq_ok.2 ⟨hinsert, rfl⟩, ht⟩
    · rw [hrows, hu, citationRows_cons, List.reverse_cons, List.append_assoc]
      rfl

/-- **Replacing the citations of an answer**: it returns exactly if every
target can be cited, and then leaves one edge a citation. -/
theorem replaceEdgesForOrigin_citations (w : GraphView) (viewerId : Uuid) (hsource : source.scheme = .message) (hids : FreshIds newId s)
    (inputs : List CitationInput) (hpositive : ∀ c ∈ inputs, 1 ≤ c.ordinal)
    (hdistinct : (inputs.map CitationInput.ordinal).Nodup) :
    let kept := inputs.filter fun c => c.target ≠ source
    ((∃ t, replaceEdgesForOrigin w newId viewerId source .citation (inputs.map (citationEdge source)) s = .ok t) ↔
      ∀ c ∈ kept, Citable w c.target) ∧
    ∀ t, replaceEdgesForOrigin w newId viewerId source .citation (inputs.map (citationEdge source)) s = .ok t →
      t.rows.filter (fun e => e.userId == viewerId && e.source == source && e.origin == .citation) =
        (citationRows newId viewerId source 0 kept).reverse := by
  intro kept
  have hkept : Insertable source kept := by
    refine ⟨fun c hc => by simpa using (List.mem_filter.1 hc).2, fun c hc => hpositive c (List.mem_filter.1 hc).1, ?_⟩
    exact hdistinct.sublist (List.filter_sublist.map _)
  have hmembers : (inputs.map (citationEdge source)).filter (fun e => e.target ≠ source) =
      kept.map (citationEdge source) := by
    rw [List.filter_map]
    rfl
  have hcleared : ∀ e ∈ (s.deleteWhere fun e => e.userId == viewerId && e.source == source && e.origin == .citation).rows,
      e.userId = viewerId → e.source = source → ∀ c ∈ kept, e.ordinal ≠ .some (c.ordinal : Int) := by
    intro e he huser hsrc c _ hord
    obtain ⟨hmem, hnot⟩ := Store.mem_deleteWhere.1 he
    have hchecks : e.toEdgeCreate.checks = true := s.checked e hmem
    have horigin : e.origin = .citation := by
      simp only [EdgeCreate.checks, Bool.and_eq_true, Bool.or_eq_true] at hchecks
      have hordinal := hchecks.1.2
      rw [hord] at hordinal
      rcases hordinal with hnone | hsome
      · cases hnone
      · exact eq_of_beq hsome.1
    simp [huser, hsrc, horigin] at hnot
  obtain ⟨t, hinsert, hrows⟩ := exists_insertRows viewerId hsource hids.injective hkept (i := 0)
    (fun e he j _ => hids.unused e (Store.mem_deleteWhere.1 he).1 j) hcleared
  have hreplace : ∀ u, replaceEdgesForOrigin w newId viewerId source .citation (inputs.map (citationEdge source)) s = .ok u ↔
      (∀ c ∈ kept, Citable w c.target) ∧ u = t := by
    intro u
    rw [replaceEdgesForOrigin, hmembers, bind_eq_ok,
      distinctMembers_citations hkept.distinct fun c _ => List.not_mem_nil]
    simp only [bind, Except.bind, hinsert, Except.ok.injEq]
    constructor
    · rintro ⟨_, hvalid, rfl⟩
      exact ⟨(validateMembers_citations hsource hkept).1 hvalid, rfl⟩
    · rintro ⟨hcitable, rfl⟩
      exact ⟨_, (validateMembers_citations hsource hkept).2 hcitable, rfl⟩
  constructor
  · constructor
    · rintro ⟨u, hu⟩
      exact ((hreplace u).1 hu).1
    · intro hcitable
      exact ⟨t, (hreplace t).2 ⟨hcitable, rfl⟩⟩
  · intro u hu
    obtain ⟨-, rfl⟩ := (hreplace u).1 hu
    rw [hrows, List.filter_append, Store.rows_deleteWhere, List.filter_filter, List.filter_eq_self.2, List.filter_eq_nil_iff.2,
      List.append_nil]
    · intro e _
      cases (e.userId == viewerId && e.source == source && e.origin == .citation) <;> decide
    · intro e he
      rw [List.mem_reverse, citationRows, List.mem_mapIdx] at he
      obtain ⟨j, hj, rfl⟩ := he
      simp [citationEdge]

end Replace

/-! ## Candidates -/

section Candidates

variable {candidates : List CitationCandidate}

theorem candidateByOrdinal_eq_ok {n : Nat} {c : CitationCandidate} (h : candidateByOrdinal candidates n = .ok c) :
    c ∈ candidates ∧ c.candidateOrdinal = n := by
  unfold candidateByOrdinal at h
  split at h
  · cases h
  · rename_i found hfound
    cases h
    exact ⟨List.mem_of_find?_eq_some hfound, by simpa using List.find?_some hfound⟩

theorem exists_candidateByOrdinal {n : Nat} (h : n ∈ candidates.map CitationCandidate.candidateOrdinal) :
    ∃ c, candidateByOrdinal candidates n = .ok c := by
  obtain ⟨c, hc, rfl⟩ := List.mem_map.1 h
  cases hfind : candidates.find? fun d => d.candidateOrdinal = c.candidateOrdinal with
  | none => exact absurd (List.find?_eq_none.1 hfind c hc) (by simp)
  | some d => exact ⟨d, by rw [candidateByOrdinal, hfind]⟩

theorem readCandidates_sublist : ∀ {rows : List MessageRetrieval} {candidates : List CitationCandidate},
    readCandidates rows = .ok candidates → (candidates.map CitationCandidate.retrievalId).Sublist (rows.map MessageRetrieval.id)
  | [], _, h => by cases h; exact .slnil
  | row :: rows, _, h => by
    unfold readCandidates at h
    split at h
    · exact (readCandidates_sublist h).cons _
    · split at h
      · cases h
      · obtain ⟨rest, hrest, rfl⟩ := map_eq_ok.1 h
        exact (readCandidates_sublist hrest).cons_cons _

theorem candidate_eq_of_retrievalId {t : Table MessageRetrieval MessageRetrieval.id}
    (h : readCandidates t.rows = .ok candidates) {c d : CitationCandidate} (hc : c ∈ candidates) (hd : d ∈ candidates)
    (heq : c.retrievalId = d.retrievalId) : c = d :=
  List.inj_on_of_nodup_map (t.nodup.sublist (readCandidates_sublist h)) hc hd heq

/-- The edge a retrieval points back to. -/
def citedEdge (t : Table MessageRetrieval MessageRetrieval.id) (retrievalId : Uuid) : Option Uuid :=
  (t.find? retrievalId).bind MessageRetrieval.citedEdgeId

theorem find?_setCited (t : Table MessageRetrieval MessageRetrieval.id) (retrievalId edgeId k : Uuid) :
    ((setCited t retrievalId edgeId).find? k).isSome = (t.find? k).isSome := by
  rw [setCited, Table.find?_updateWhere, Option.isSome_map]

theorem citedEdge_setCited {t : Table MessageRetrieval MessageRetrieval.id} {retrievalId : Uuid} (edgeId : Uuid)
    (h : (t.find? retrievalId).isSome = true) : citedEdge (setCited t retrievalId edgeId) retrievalId = .some edgeId := by
  obtain ⟨row, hrow⟩ := Option.isSome_iff_exists.1 h
  rw [citedEdge, setCited, Table.find?_updateWhere, hrow]
  simp [(Table.find?_eq_some.1 hrow).2]

theorem citedEdge_setCited_ne {t : Table MessageRetrieval MessageRetrieval.id} {retrievalId k : Uuid} (edgeId : Uuid)
    (h : k ≠ retrievalId) : citedEdge (setCited t retrievalId edgeId) k = citedEdge t k := by
  rw [citedEdge, citedEdge, setCited, Table.find?_updateWhere]
  cases hrow : t.find? k with
  | none => rfl
  | some row =>
    have hid : row.id ≠ retrievalId := by
      rw [(Table.find?_eq_some.1 hrow).2]
      exact h
    simp [hid]

theorem exists_pointBack {pairs : List (CanonicalCitation × ResourceEdge)} {t : Table MessageRetrieval MessageRetrieval.id}
    (hfound : ∀ p ∈ pairs, ∃ c, candidateByOrdinal candidates p.1.candidateOrdinal = .ok c ∧
      (t.find? c.retrievalId).isSome = true)
    (hdistinct : pairs.Pairwise fun p q => ∀ c d, candidateByOrdinal candidates p.1.candidateOrdinal = .ok c →
      candidateByOrdinal candidates q.1.candidateOrdinal = .ok d → c.retrievalId ≠ d.retrievalId) :
    ∃ u, pointBack candidates pairs t = .ok u ∧
      (∀ p ∈ pairs, ∀ c, candidateByOrdinal candidates p.1.candidateOrdinal = .ok c →
        citedEdge u c.retrievalId = .some p.2.id) ∧
      ∀ k, (∀ p ∈ pairs, ∀ c, candidateByOrdinal candidates p.1.candidateOrdinal = .ok c → c.retrievalId ≠ k) →
        citedEdge u k = citedEdge t k := by
  induction pairs generalizing t with
  | nil => exact ⟨t, rfl, by simp, fun _ _ => rfl⟩
  | cons p pairs ih =>
    obtain ⟨c, hc, hsome⟩ := hfound p List.mem_cons_self
    obtain ⟨hhead, htail⟩ := List.pairwise_cons.1 hdistinct
    obtain ⟨u, hu, hcited, hkept⟩ := @ih (setCited t c.retrievalId p.2.id)
      (by
        intro q hq
        obtain ⟨d, hd, hdsome⟩ := hfound q (List.mem_cons_of_mem _ hq)
        exact ⟨d, hd, by rw [find?_setCited, hdsome]⟩) htail
    refine ⟨u, ?_, ?_, ?_⟩
    · have hnotNone : ¬ (t.find? c.retrievalId).isNone = true := by
        rw [← Option.not_isSome, hsome]
        decide
      rw [pointBack]
      exact bind_eq_ok.2 ⟨c, hc, by rw [if_neg hnotNone, hu]⟩
    · intro q hq d hd
      rcases List.mem_cons.1 hq with rfl | hq
      · obtain rfl : c = d := Except.ok.inj (hc.symm.trans hd)
        rw [hkept c.retrievalId fun q hq d hd => (hhead q hq c d hc hd).symm, citedEdge_setCited _ hsome]
      · exact hcited q hq d hd
    · intro k hk
      rw [hkept k fun q hq => hk q (List.mem_cons_of_mem _ hq),
        citedEdge_setCited_ne _ fun heq => hk p List.mem_cons_self c hc heq.symm]

end Candidates

/-! ## What publication leaves -/

theorem finalOrdinals_rankedFrom (k : Nat) (ns : List Nat) :
    (rankedFrom k ns).map CanonicalCitation.finalOrdinal = List.range' k ns.length := by
  refine List.ext_getElem (by simp [rankedFrom]) fun i _ _ => ?_
  simp [rankedFrom, Nat.add_comm]

theorem candidateOrdinals_rankedFrom (k : Nat) (ns : List Nat) :
    (rankedFrom k ns).map CanonicalCitation.candidateOrdinal = ns := by
  refine List.ext_getElem (by simp [rankedFrom]) fun i _ _ => ?_
  simp [rankedFrom]

theorem denseOrdinals_range' (n : Nat) : denseOrdinals (List.range' 1 n) = true := by
  have hsorted : (List.range' 1 n).Pairwise (· ≤ ·) := List.pairwise_le_range'
  rw [denseOrdinals, hsorted.insertionSort_eq, List.length_range']
  exact beq_self_eq_true _

end Nexus.Citations
