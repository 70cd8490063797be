/-
What `publish_chat_citations` leaves, by the way canonicalization went: an edge
for every cited candidate with its retrieval pointing back to it, or none.
-/
import Nexus.Citations.EdgesWritten

namespace Nexus.Citations
open Relational Graph ExceptFacts FindIter

section Publish

variable {w : GraphView} {newId : Nat → Uuid} {md : Text} {s t : PublicationState} {candidates : List CitationCandidate}

/-- The input of a citation of a candidate. -/
def inputOf (chosen : Nat → CitationCandidate) (citation : CanonicalCitation) : CitationInput :=
  ⟨(chosen citation.candidateOrdinal).target, citation.finalOrdinal, .context, (chosen citation.candidateOrdinal).snapshot⟩

/-- The citations of an accepted text, in the order of their first use. -/
def citationsOf (md : Text) : List CanonicalCitation := rankedFrom 1 (firstOccurrences (numbers md))

theorem ordinals_inputs (chosen : Nat → CitationCandidate) (md : Text) :
    ((citationsOf md).map (inputOf chosen)).map CitationInput.ordinal =
      List.range' 1 (firstOccurrences (numbers md)).length := by
  rw [← finalOrdinals_rankedFrom, List.map_map]
  rfl

theorem exists_chosen (h : Accepted (candidates.map CitationCandidate.candidateOrdinal) md) :
    ∃ chosen : Nat → CitationCandidate, ∀ n ∈ numbers md, candidateByOrdinal candidates n = .ok (chosen n) := by
  have hall : ∀ n, ∃ c, n ∈ numbers md → candidateByOrdinal candidates n = .ok c := by
    intro n
    by_cases hn : n ∈ numbers md
    · obtain ⟨g, hg, rfl⟩ := List.mem_map.1 hn
      obtain ⟨c, hc⟩ := exists_candidateByOrdinal (h g hg).2
      exact ⟨c, fun _ => hc⟩
    · exact ⟨⟨0, 0, ⟨.media, 0⟩, ⟨.none⟩⟩, fun h => absurd h hn⟩
  choose chosen hchosen using hall
  exact ⟨chosen, hchosen⟩

theorem mem_citationsOf {c : CanonicalCitation} (h : c ∈ citationsOf md) : c.candidateOrdinal ∈ numbers md := by
  have hmem := List.mem_map_of_mem (f := CanonicalCitation.candidateOrdinal) h
  rwa [citationsOf, candidateOrdinals_rankedFrom, mem_firstOccurrences] at hmem

theorem citationInputs_eq {chosen : Nat → CitationCandidate}
    (hchosen : ∀ n ∈ numbers md, candidateByOrdinal candidates n = .ok (chosen n)) (contentMd : Text) :
    citationInputs candidates (.published contentMd (citationsOf md)) = .ok ((citationsOf md).map (inputOf chosen)) := by
  rw [citationInputs, mapM_eq_ok, List.forall₂_map_right_iff, List.forall₂_same]
  intro c hc
  rw [citationInput, hchosen _ (mem_citationsOf hc)]
  rfl

theorem replaceCitations_eq_ok {chosen : Nat → CitationCandidate} (hids : FreshIds newId s.edges) {edges : Edges}
    {rows : List ResourceEdge} :
    let kept := ((citationsOf md).map (inputOf chosen)).filter fun c => c.target ≠ s.messageRef
    replaceCitationsForOutput w newId s.ownerUserId s.messageRef ((citationsOf md).map (inputOf chosen)) s.edges =
        .ok (edges, rows) →
      (∀ c ∈ kept, Citable w c.target) ∧ rows = citationRows newId s.ownerUserId s.messageRef 0 kept ∧
        citationEdges { s with edges } = rows.reverse := by
  intro kept h
  obtain ⟨-, -, h⟩ := bind_eq_ok.1 h
  obtain ⟨u, hu, h⟩ := bind_eq_ok.1 h
  cases h
  have hpositive : ∀ c ∈ (citationsOf md).map (inputOf chosen), 1 ≤ c.ordinal := by
    intro c hc
    have hmem := List.mem_map_of_mem (f := CitationInput.ordinal) hc
    rw [ordinals_inputs, List.mem_range'_1] at hmem
    exact hmem.1
  have hdistinct : (((citationsOf md).map (inputOf chosen)).map CitationInput.ordinal).Nodup := by
    rw [ordinals_inputs]
    exact List.nodup_range'
  obtain ⟨hiff, hedges⟩ := replaceEdgesForOrigin_citations w s.ownerUserId (rfl : s.messageRef.scheme = .message) hids _
    hpositive hdistinct
  have hrows : replacedRows newId s.ownerUserId s.messageRef
      (((citationsOf md).map (inputOf chosen)).map (citationEdge s.messageRef)) =
        citationRows newId s.ownerUserId s.messageRef 0 kept := by
    have hmembers : (((citationsOf md).map (inputOf chosen)).map (citationEdge s.messageRef)).filter
        (fun e => e.target ≠ s.messageRef) = kept.map (citationEdge s.messageRef) := by
      rw [List.filter_map]
      rfl
    rw [replacedRows, hmembers]
    refine List.ext_getElem (by simp [citationRows]) fun i _ _ => ?_
    simp [citationRows]
  exact ⟨hiff.1 ⟨edges, hu⟩, hrows, by rw [hrows]; exact hedges edges hu⟩

theorem exists_replaceCitations (w : GraphView) (md : Text) (chosen : Nat → CitationCandidate) (hids : FreshIds newId s.edges)
    (hcitable : ∀ c ∈ citationsOf md, (chosen c.candidateOrdinal).target ≠ s.messageRef ∧
      Citable w (chosen c.candidateOrdinal).target) :
    ∃ edges rows, replaceCitationsForOutput w newId s.ownerUserId s.messageRef ((citationsOf md).map (inputOf chosen))
        s.edges = .ok (edges, rows) ∧
      rows = citationRows newId s.ownerUserId s.messageRef 0 ((citationsOf md).map (inputOf chosen)) ∧
        citationEdges { s with edges } = rows.reverse := by
  have hkept : ((citationsOf md).map (inputOf chosen)).filter (fun c => c.target ≠ s.messageRef) =
      (citationsOf md).map (inputOf chosen) := by
    refine List.filter_eq_self.2 fun c hc => ?_
    obtain ⟨citation, hcitation, rfl⟩ := List.mem_map.1 hc
    exact decide_eq_true (hcitable citation hcitation).1
  have hordinals := ordinals_inputs chosen md
  have hpositive : ∀ c ∈ (citationsOf md).map (inputOf chosen), 1 ≤ c.ordinal := by
    intro c hc
    have hmem := List.mem_map_of_mem (f := CitationInput.ordinal) hc
    rw [hordinals, List.mem_range'_1] at hmem
    exact hmem.1
  have hdistinct : (((citationsOf md).map (inputOf chosen)).map CitationInput.ordinal).Nodup := by
    rw [hordinals]
    exact List.nodup_range'
  obtain ⟨hiff, -⟩ := replaceEdgesForOrigin_citations w s.ownerUserId (rfl : s.messageRef.scheme = .message) hids _
    hpositive hdistinct
  obtain ⟨edges, hedges⟩ := hiff.2 (by
    rw [hkept]
    intro c hc
    obtain ⟨citation, hcitation, rfl⟩ := List.mem_map.1 hc
    exact (hcitable citation hcitation).2)
  have hok : replaceCitationsForOutput w newId s.ownerUserId s.messageRef ((citationsOf md).map (inputOf chosen)) s.edges =
      .ok (edges, replacedRows newId s.ownerUserId s.messageRef
        (((citationsOf md).map (inputOf chosen)).map (citationEdge s.messageRef))) := by
    have hdense : denseCitationOrdinals ((citationsOf md).map (inputOf chosen)) = .ok () := by
      rw [denseCitationOrdinals, hordinals, if_pos (denseOrdinals_range' _)]
    rw [replaceCitationsForOutput, hdense]
    exact bind_eq_ok.2 ⟨_, rfl, bind_eq_ok.2 ⟨_, hedges, rfl⟩⟩
  obtain ⟨-, hrows, hcitations⟩ := replaceCitations_eq_ok hids hok
  rw [hkept] at hrows
  exact ⟨edges, _, hok, hrows, hcitations⟩

theorem find?_clearCited {c : CitationCandidate} (hread : readCandidates s.retrievals.rows = .ok candidates)
    (hc : c ∈ candidates) : ((clearCited s.retrievals).find? c.retrievalId).isSome = true := by
  rw [clearCited, Table.find?_updateWhere, Option.isSome_map]
  have hmem := (readCandidates_sublist hread).subset (List.mem_map_of_mem hc)
  obtain ⟨row, hrow, hid⟩ := List.mem_map.1 hmem
  rw [← hid, Table.find?_of_mem hrow]
  rfl

/-- What an edge of the answer is about: the candidate a marker named. -/
structure CitesCandidate (candidates : List CitationCandidate) (retrievals : Table MessageRetrieval MessageRetrieval.id)
    (e : ResourceEdge) (ordinal candidateOrdinal : Nat) : Prop where
  ordinal : e.ordinal = .some (ordinal : Int)
  candidate : ∃ c ∈ candidates, c.candidateOrdinal = candidateOrdinal ∧ e.target = c.target ∧
    e.snapshot = .some c.snapshot ∧ citedEdge retrievals c.retrievalId = .some e.id

theorem exists_backPointers (newId : Nat → Uuid) {chosen : Nat → CitationCandidate} (hread : readCandidates s.retrievals.rows = .ok candidates)
    (hchosen : ∀ n ∈ numbers md, candidateByOrdinal candidates n = .ok (chosen n)) :
    ∃ retrievals, publishBackPointers candidates
        (citationRows newId s.ownerUserId s.messageRef 0 ((citationsOf md).map (inputOf chosen))) (clearCited s.retrievals)
        (.published (canonicalText md) (citationsOf md)) = .ok retrievals ∧
      ∀ n ∈ numbers md, ∃ e ∈ citationRows newId s.ownerUserId s.messageRef 0 ((citationsOf md).map (inputOf chosen)),
        CitesCandidate candidates retrievals e (rank (numbers md) n) n := by
  generalize hrows : citationRows newId s.ownerUserId s.messageRef 0 ((citationsOf md).map (inputOf chosen)) = rows
  have hlength : rows.length = (citationsOf md).length := by simp [← hrows, citationRows]
  have hfound : ∀ p ∈ (citationsOf md).zip rows, ∃ c, candidateByOrdinal candidates p.1.candidateOrdinal = .ok c ∧
      ((clearCited s.retrievals).find? c.retrievalId).isSome = true := by
    intro p hp
    have hc := hchosen _ (mem_citationsOf (List.of_mem_zip hp).1)
    exact ⟨_, hc, find?_clearCited hread (candidateByOrdinal_eq_ok hc).1⟩
  have hdistinct : ((citationsOf md).zip rows).Pairwise fun p q => ∀ c d,
      candidateByOrdinal candidates p.1.candidateOrdinal = .ok c →
        candidateByOrdinal candidates q.1.candidateOrdinal = .ok d → c.retrievalId ≠ d.retrievalId := by
    have hordinals : (((citationsOf md).zip rows).map fun p => p.1.candidateOrdinal).Nodup := by
      have hzip : ((citationsOf md).zip rows).map Prod.fst = citationsOf md := List.map_fst_zip (by omega)
      have hfst : ((citationsOf md).zip rows).map (fun p => p.1.candidateOrdinal) = firstOccurrences (numbers md) := by
        calc ((citationsOf md).zip rows).map (fun p => p.1.candidateOrdinal)
            = (((citationsOf md).zip rows).map Prod.fst).map CanonicalCitation.candidateOrdinal := by
              rw [List.map_map]
              rfl
          _ = firstOccurrences (numbers md) := by rw [hzip, citationsOf, candidateOrdinals_rankedFrom]
      rw [hfst]
      exact nodup_firstOccurrences _
    refine (List.pairwise_map.1 hordinals).imp fun hne c d hc hd heq => hne ?_
    obtain ⟨hcmem, hcord⟩ := candidateByOrdinal_eq_ok hc
    obtain ⟨hdmem, hdord⟩ := candidateByOrdinal_eq_ok hd
    rw [← hcord, ← hdord, candidate_eq_of_retrievalId hread hcmem hdmem heq]
  obtain ⟨retrievals, hpoint, hcited, -⟩ := exists_pointBack hfound hdistinct
  have hpointers : ∃ u, publishBackPointers candidates rows (clearCited s.retrievals)
      (.published (canonicalText md) (citationsOf md)) = .ok u ∧ (rows ≠ [] → u = retrievals) := by
    simp only [publishBackPointers]
    by_cases hnil : rows = []
    · exact ⟨_, if_pos hnil, fun h => absurd hnil h⟩
    · exact ⟨retrievals, by rw [if_neg hnil, if_neg (by omega), hpoint], fun _ => rfl⟩
  obtain ⟨u, hu, heq⟩ := hpointers
  refine ⟨u, hu, fun n hn => ?_⟩
  have hmem : n ∈ firstOccurrences (numbers md) := mem_firstOccurrences.2 hn
  have hcitation : (citationsOf md)[(firstOccurrences (numbers md)).idxOf n]? = .some ⟨n, rank (numbers md) n⟩ := by
    rw [citationsOf, rankedFrom, List.getElem?_mapIdx, List.getElem?_idxOf hmem]
    rfl
  have hrow : rows[(firstOccurrences (numbers md)).idxOf n]? =
      .some ⟨citationEdge s.messageRef (inputOf chosen ⟨n, rank (numbers md) n⟩),
        newId ((firstOccurrences (numbers md)).idxOf n), s.ownerUserId⟩ := by
    rw [← hrows, citationRows, List.getElem?_mapIdx, List.getElem?_map, hcitation]
    simp
  have hpair : (⟨n, rank (numbers md) n⟩, _) ∈ (citationsOf md).zip rows :=
    List.mem_of_getElem? (List.getElem?_zip_eq_some.2 ⟨hcitation, hrow⟩)
  refine ⟨_, List.mem_of_getElem? hrow, ⟨rfl, chosen n, (candidateByOrdinal_eq_ok (hchosen n hn)).1,
    (candidateByOrdinal_eq_ok (hchosen n hn)).2, rfl, rfl, ?_⟩⟩
  rw [heq (List.ne_nil_of_mem (List.mem_of_getElem? hrow))]
  exact hcited _ hpair (chosen n) (hchosen n hn)

/-! ## The three outcomes -/

variable (hread : readCandidates s.retrievals.rows = .ok candidates)
  (hdense : denseOrdinals (candidates.map CitationCandidate.candidateOrdinal) = true)
  (hreadable : Readable md) (hids : FreshIds newId s.edges)

include hread hdense hreadable hids

/-- **An accepted text whose candidates can be cited is published**, with an
edge for every cited candidate. -/
theorem exists_published (haccepted : Accepted (candidates.map CitationCandidate.candidateOrdinal) md)
    (hcitable : ∀ c ∈ candidates, c.candidateOrdinal ∈ numbers md → c.target ≠ s.messageRef ∧ Citable w c.target) :
    ∃ edges retrievals, publishChatCitations w newId md s =
        .ok ({ s with edges, retrievals }, .published (canonicalText md) (citationsOf md)) ∧
      (citationEdges { s with edges, retrievals }).length = (firstOccurrences (numbers md)).length ∧
        ∀ n ∈ numbers md, ∃ e ∈ citationEdges { s with edges, retrievals },
          CitesCandidate candidates retrievals e (rank (numbers md) n) n := by
  obtain ⟨detail, hcanonical⟩ := canonicalize_eq hdense hreadable
  rw [if_pos haccepted] at hcanonical
  obtain ⟨chosen, hchosen⟩ := exists_chosen haccepted
  obtain ⟨edges, rows, hreplace, rfl, hcitations⟩ := exists_replaceCitations w md chosen hids
    (fun c hc => by
      obtain ⟨hmem, hord⟩ := candidateByOrdinal_eq_ok (hchosen _ (mem_citationsOf hc))
      exact hcitable _ hmem (by rw [hord]; exact mem_citationsOf hc))
  obtain ⟨retrievals, hpointers, hcites⟩ := exists_backPointers newId hread hchosen
  have hedges : citationEdges { s with edges, retrievals } =
      (citationRows newId s.ownerUserId s.messageRef 0 ((citationsOf md).map (inputOf chosen))).reverse := hcitations
  refine ⟨edges, retrievals, ?_, ?_, ?_⟩
  · rw [publishChatCitations]
    exact bind_eq_ok.2 ⟨_, hread, bind_eq_ok.2 ⟨_, hcanonical, bind_eq_ok.2 ⟨_, citationInputs_eq hchosen _,
      bind_eq_ok.2 ⟨_, hreplace, bind_eq_ok.2 ⟨_, hpointers, rfl⟩⟩⟩⟩⟩
  · rw [hedges]
    simp [citationRows, citationsOf, rankedFrom]
  · intro n hn
    obtain ⟨e, he, hcandidate⟩ := hcites n hn
    exact ⟨e, by rw [hedges, List.mem_reverse]; exact he, hcandidate⟩

/-- Publication of an accepted text that cites what cannot be cited raises, or
leaves the markers without edges. -/
theorem citationEdges_eq_nil_of_uncitable (haccepted : Accepted (candidates.map CitationCandidate.candidateOrdinal) md)
    (hbad : ∃ c ∈ candidates, c.candidateOrdinal ∈ numbers md ∧ ¬ (c.target ≠ s.messageRef ∧ Citable w c.target))
    {result : CanonicalCitationResult} (h : publishChatCitations w newId md s = .ok (t, result)) :
    result = .published (canonicalText md) (citationsOf md) ∧ citationEdges t = [] := by
  obtain ⟨detail, hcanonical⟩ := canonicalize_eq hdense hreadable
  rw [if_pos haccepted] at hcanonical
  obtain ⟨chosen, hchosen⟩ := exists_chosen haccepted
  obtain ⟨_, hread', h⟩ := bind_eq_ok.1 h
  obtain rfl := Except.ok.inj (hread.symm.trans hread')
  obtain ⟨_, hcanonical', h⟩ := bind_eq_ok.1 h
  obtain rfl := Except.ok.inj (hcanonical.symm.trans hcanonical')
  obtain ⟨_, hinputs, h⟩ := bind_eq_ok.1 h
  obtain rfl := Except.ok.inj ((citationInputs_eq hchosen (canonicalText md)).symm.trans hinputs)
  obtain ⟨⟨edges, rows⟩, hreplace, h⟩ := bind_eq_ok.1 h
  obtain ⟨retrievals, hpointers, h⟩ := bind_eq_ok.1 h
  cases h
  obtain ⟨hcitable, hrows, hcitations⟩ := replaceCitations_eq_ok hids hreplace
  refine ⟨rfl, ?_⟩
  have hedges : citationEdges { s with edges, retrievals } = rows.reverse := hcitations
  rw [hedges]
  by_contra hne
  have hrowsne : rows ≠ [] := fun hnil => hne (by rw [hnil]; rfl)
  simp only [publishBackPointers, if_neg hrowsne] at hpointers
  have hlength : rows.length = (citationsOf md).length := not_not.1 (check_eq_ok.1 hpointers).1
  -- as many rows as citations: none was dropped, so every target is another resource that can be cited
  have hkept : ((citationsOf md).map (inputOf chosen)).filter (fun c => c.target ≠ s.messageRef) =
      (citationsOf md).map (inputOf chosen) := by
    refine List.filter_sublist.eq_of_length ?_
    rw [List.length_map, ← hlength, hrows, citationRows, List.length_mapIdx]
  obtain ⟨c, hc, hcited, hnot⟩ := hbad
  have hsame : chosen c.candidateOrdinal = c := by
    obtain ⟨hmem, hord⟩ := candidateByOrdinal_eq_ok (hchosen _ hcited)
    have hnodup : (candidates.map CitationCandidate.candidateOrdinal).Nodup := by
      have hperm := List.perm_insertionSort (· ≤ ·) (candidates.map CitationCandidate.candidateOrdinal)
      rw [eq_of_beq hdense] at hperm
      exact hperm.nodup_iff.1 List.nodup_range'
    exact List.inj_on_of_nodup_map hnodup hmem hc hord
  have hinput : inputOf chosen ⟨c.candidateOrdinal, rank (numbers md) c.candidateOrdinal⟩ ∈
      (citationsOf md).map (inputOf chosen) :=
    List.mem_map_of_mem (List.mem_of_find?_eq_some (find?_rankedFrom 1 (mem_firstOccurrences.2 hcited)))
  refine hnot ⟨?_, ?_⟩
  · rw [← hkept] at hinput
    have htarget := of_decide_eq_true (List.mem_filter.1 hinput).2
    rwa [inputOf, hsame] at htarget
  · have htarget := hcitable _ (by rw [hkept]; exact hinput)
    rwa [inputOf, hsame] at htarget

/-- **Any other text is degraded**, without its markers and without edges. -/
theorem exists_degraded (haccepted : ¬ Accepted (candidates.map CitationCandidate.candidateOrdinal) md) :
    ∃ edges retrievals detail, publishChatCitations w newId md s =
        .ok ({ s with edges, retrievals }, .degraded (outsideText md) detail) ∧
      citationEdges { s with edges, retrievals } = [] := by
  obtain ⟨detail, hcanonical⟩ := canonicalize_eq hdense hreadable
  rw [if_neg haccepted] at hcanonical
  have hdistinct : (([] : List CitationInput).map CitationInput.ordinal).Nodup := List.nodup_nil
  obtain ⟨hiff, hedges⟩ := replaceEdgesForOrigin_citations w s.ownerUserId (rfl : s.messageRef.scheme = .message) hids []
    (by simp) hdistinct
  obtain ⟨edges, hok⟩ := hiff.2 (by simp)
  refine ⟨edges, clearCited s.retrievals, detail, ?_, hedges edges hok⟩
  rw [publishChatCitations]
  refine bind_eq_ok.2 ⟨_, hread, bind_eq_ok.2 ⟨_, hcanonical, bind_eq_ok.2 ⟨[], rfl, ?_⟩⟩⟩
  have hreplace : replaceCitationsForOutput w newId s.ownerUserId s.messageRef [] s.edges = .ok (edges, []) := by
    rw [replaceCitationsForOutput]
    exact bind_eq_ok.2 ⟨(), rfl, bind_eq_ok.2 ⟨_, hok, rfl⟩⟩
  exact bind_eq_ok.2 ⟨_, hreplace, bind_eq_ok.2 ⟨_, rfl, rfl⟩⟩

end Publish

end Nexus.Citations
