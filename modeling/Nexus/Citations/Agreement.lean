/-
Whether the text stored of an answer agrees with its citation edges.

Renumbering keeps the markers and the text between them, so an accepted answer
agrees unless it is cut on storing (`stored_eq_of_agrees`). A degraded answer
loses its markers in one pass, which can bring the pieces of another together:
`[[9]1]` without `[9]` reads `[1]`. Both are made exact in `publication_agrees_iff`.
-/
import Nexus.Citations.Published

namespace Nexus.Citations
open Relational Graph ExceptFacts FindIter

/-! ## Agreement -/

/-- The text before, between and after the markers. -/
def textOutside (s : Text) : Nat → Markers → List Text
  | cursor, [] => [s.drop cursor]
  | cursor, m :: ms => (s.take m.start).drop cursor :: textOutside s m.stop ms

/-- The markers of the stored text against those of the generated one. -/
structure MarkersAgree (candidates : List CitationCandidate) (md : Text) (t : PublicationState)
    (generated stored : Markers) : Prop where
  plain : ∀ m ∈ stored, m.linked = false
  dense : firstOccurrences (stored.map (·.ordinal)) = List.range' 1 (citationEdges t).length
  outside : textOutside t.content 0 stored = textOutside md 0 generated
  resolves : List.Forall₂ (fun ordinal cited => ∃ e ∈ citationEdges t,
    CitesCandidate candidates t.retrievals e ordinal cited) (stored.map (·.ordinal)) (generated.map (·.ordinal))

/-- What a published answer is held to. -/
def PublishedAgrees (candidates : List CitationCandidate) (md : Text) (t : PublicationState) : Prop :=
  ∃ generated stored, parseGeneratedMarkdownCitationMarkers md = .ok generated ∧
    parseGeneratedMarkdownCitationMarkers t.content = .ok stored ∧ MarkersAgree candidates md t generated stored

/-- What a degraded answer is held to. -/
def DegradedAgrees (t : PublicationState) : Prop :=
  parseGeneratedMarkdownCitationMarkers t.content = .ok [] ∧ citationEdges t = []

/-- Publication returns, and what it stored agrees with what it wrote. -/
def PublicationAgrees (w : GraphView) (newId : Nat → Uuid) (candidates : List CitationCandidate) (md : Text)
    (s : PublicationState) : Prop :=
  ∃ t result, publishChatRun w newId md s = .ok (t, result) ∧
    match result with
    | .published _ _ => PublishedAgrees candidates md t
    | .degraded _ _ => DegradedAgrees t

/-! ## When it holds -/

/-- How long the text is when every marker shows its candidate's place in the
order of first use. -/
def shownLength (md : Text) : Nat :=
  (outsideText md).length + ((hits (pieces md)).map fun g => (rankDigits (numbers md) g).length + 2).sum

/-- Nothing is cut on storing, or what is cut is the notice itself. -/
def Fits (md : Text) : Prop :=
  shownLength md ≤ maxAssistantContentLength ∨
    ∃ p, md = p ++ truncationNotice ∧ shownLength p = maxAssistantContentLength

/-- Every cited target is another resource, and one that can be cited. -/
def CitesWell (w : GraphView) (s : PublicationState) (candidates : List CitationCandidate) (md : Text) : Prop :=
  ∀ c ∈ candidates, c.candidateOrdinal ∈ numbers md → c.target ≠ s.messageRef ∧ Citable w c.target

/-- Outside the markers stand `[`, at least one digit and `]`, in this order
and early enough to be stored, with nothing else between them but markers. -/
def Rejoins (md : Text) : Prop :=
  ∃ pre mid post, pieces md = pre ++ .outside '[' :: (mid ++ .outside ']' :: post) ∧ Digits (outsides mid) ∧
    (outsides pre).length + (outsides mid).length + 2 ≤ maxAssistantContentLength

/-- The generated texts that are published in agreement. -/
structure PublishesWell (w : GraphView) (s : PublicationState) (candidates : List CitationCandidate) (md : Text) : Prop where
  readable : Readable md
  accepted : Accepted (candidates.map CitationCandidate.candidateOrdinal) md → CitesWell w s candidates md ∧ Fits md
  refused : ¬ Accepted (candidates.map CitationCandidate.candidateOrdinal) md → ¬ Rejoins md

/-! ## Renumbered pieces -/

section Renumbered

variable {d : MarkerGroups → Text} {md : Text}

theorem hits_map_renumber (ps : List (Piece Char MarkerGroups)) :
    hits (ps.map (renumber d)) = (hits ps).map fun g => ⟨d g, .none⟩ := by
  induction ps with
  | nil => rfl
  | cons piece ps ih => cases piece <;> simp [renumber, plainPiece, hits, ih]

theorem gaps_map_renumber (ps : List (Piece Char MarkerGroups)) (pre : Text) :
    gaps pre (ps.map (renumber d)) = gaps pre ps := by
  induction ps generalizing pre with
  | nil => rfl
  | cons piece ps ih => cases piece <;> simp [renumber, plainPiece, gaps, ih]

theorem length_renumberedText (ps : List (Piece Char MarkerGroups)) :
    (renumberedText d ps).length = (outsides ps).length + ((hits ps).map fun g => (d g).length + 2).sum := by
  induction ps with
  | nil => rfl
  | cons piece ps ih =>
    cases piece with
    | outside c =>
      rw [renumberedText_outside, List.length_cons, ih, outsides, hits, List.length_cons]
      omega
    | hit g text =>
      have hcons : renumberedText d (.hit g text :: ps) = '[' :: (d g ++ ']' :: renumberedText d ps) := by
        simp [renumberedText, renumber, plainPiece, Piece.text]
      rw [hcons, outsides, hits, List.map_cons, List.sum_cons]
      simp only [List.length_cons, List.length_append]
      omega

theorem eq_of_map_renumber {ps : List (Piece Char MarkerGroups)} {s : Text}
    (h : ps.map (renumber d) = s.map .outside) : ps = s.map .outside := by
  induction ps generalizing s with
  | nil =>
    cases s with
    | nil => rfl
    | cons c s => cases h
  | cons piece ps ih =>
    cases s with
    | nil => cases h
    | cons c s =>
      obtain ⟨hpiece, hrest⟩ := List.cons.inj h
      cases piece with
      | outside e =>
        cases hpiece
        rw [List.map_cons, ih hrest]
      | hit g text => cases hpiece

theorem length_canonicalText (md : Text) : (canonicalText md).length = shownLength md := length_renumberedText _

theorem plain_of_accepted {known : List Nat} (h : Accepted known md) : ∀ g ∈ hits (pieces md), g.link = .none :=
  fun g hg => (h g hg).1

theorem pieces_canonicalText (hplain : ∀ g ∈ hits (pieces md), g.link = .none) :
    pieces (canonicalText md) = (pieces md).map (renumber (rankDigits (numbers md))) :=
  (scans_renumberedText (digits_rankDigits _) (scans_pieces md) hplain).scan_eq

theorem numbers_canonicalText (hplain : ∀ g ∈ hits (pieces md), g.link = .none) :
    numbers (canonicalText md) = (numbers md).map (rank (numbers md)) := by
  rw [numbers, pieces_canonicalText hplain, hits_map_renumber, List.map_map, numbers, List.map_map]
  refine List.map_congr_left fun g _ => ?_
  exact digitsValue_toDigits _

theorem readable_canonicalText (hplain : ∀ g ∈ hits (pieces md), g.link = .none)
    (hlength : (canonicalText md).length < 10 ^ 5) : Readable (canonicalText md) := by
  intro g hg
  rw [pieces_canonicalText hplain, hits_map_renumber] at hg
  obtain ⟨g', hg', rfl⟩ := List.mem_map.1 hg
  have hmem : digitsValue g'.digits ∈ firstOccurrences (numbers md) := mem_firstOccurrences.2 (List.mem_map_of_mem hg')
  have hrank : rank (numbers md) (digitsValue g'.digits) ≤ (hits (pieces md)).length := by
    have hidx := List.idxOf_lt_length_iff.2 hmem
    have hsub : (firstOccurrences (numbers md)).length ≤ (numbers md).length :=
      (List.subperm_of_subset (nodup_firstOccurrences _) fun n hn => mem_firstOccurrences.1 hn).length_le
    have hnumbers : (numbers md).length = (hits (pieces md)).length := by rw [numbers, List.length_map]
    rw [rank]
    omega
  have hhits : (hits (pieces md)).length ≤ ((hits (pieces md)).map fun g => (rankDigits (numbers md) g).length + 2).sum := by
    rw [← List.length_map (f := fun g => (rankDigits (numbers md) g).length + 2)]
    refine List.length_le_sum_of_one_le _ fun n hn => ?_
    obtain ⟨_, -, rfl⟩ := List.mem_map.1 hn
    omega
  rw [length_canonicalText, shownLength] at hlength
  have hdigits : (rankDigits (numbers md) g').length ≤ 5 :=
    (Nat.length_toDigits_le_iff (by omega) (by omega)).2 (by omega)
  exact hdigits.trans (by decide)

end Renumbered

/-! ## Text outside the markers -/

theorem textOutside_eq (s : Text) : textOutside s 0 ((finditer markerRe 0 0 s).map toMarker) = gaps [] (pieces s) := by
  have hmap : ∀ (ms : List (Match MarkerGroups)) (cursor : Nat), textOutside s cursor (ms.map toMarker) = between s cursor ms := by
    intro ms
    induction ms with
    | nil => exact fun _ => rfl
    | cons m ms ih => exact fun cursor => congrArg (_ :: ·) (ih m.stop)
  rw [hmap, (scans_pieces s).between_eq]

theorem hit_text {s : Text} {g : MarkerGroups} {t : Text} (h : .hit g t ∈ pieces s) : t = g.text := by
  have hscan := scans_pieces s
  generalize pieces s = ps at h hscan
  induction hscan with
  | nil => cases h
  | outside _ _ ih =>
    rcases List.mem_cons.1 h with h | h
    · cases h
    · exact ih h
  | hit hmatch _ ih =>
    rcases List.mem_cons.1 h with h | h
    · cases h
      obtain ⟨tail, htext, hlen⟩ := eq_text_of_match hmatch
      rw [← List.cons_append] at htext
      exact (List.append_inj htext (by rw [List.length_cons, hlen])).1
    · exact ih h

theorem flatMap_pieces (s : Text) : (pieces s).flatMap Piece.text = s := (scans_pieces s).flatMap_text

theorem eq_of_gaps_of_hits {s u : Text} (hgaps : gaps [] (pieces s) = gaps [] (pieces u))
    (hhits : hits (pieces s) = hits (pieces u)) : s = u := by
  have hs := flatMap_text_eq_weave (fun b t (h : Piece.hit b t ∈ pieces s) => hit_text h) []
  have hu := flatMap_text_eq_weave (fun b t (h : Piece.hit b t ∈ pieces u) => hit_text h) []
  rw [List.nil_append, flatMap_pieces] at hs hu
  rw [hs, hu, hgaps, hhits]

/-! ## Storing -/

theorem pieces_append_newline (s t : Text) : pieces (s ++ '\n' :: t) = pieces s ++ pieces ('\n' :: t) :=
  (scans_append_newline (scans_pieces s) (scans_pieces _)).scan_eq

theorem pieces_truncationNotice : pieces truncationNotice = truncationNotice.map .outside := by decide +kernel

theorem pieces_append_notice (s : Text) : pieces (s ++ truncationNotice) = pieces s ++ truncationNotice.map .outside := by
  have hnotice : ∃ t, truncationNotice = '\n' :: t := ⟨_, rfl⟩
  obtain ⟨t, ht⟩ := hnotice
  rw [← pieces_truncationNotice, ht, pieces_append_newline]

theorem numbers_append_notice (s : Text) : numbers (s ++ truncationNotice) = numbers s := by
  rw [numbers, numbers, pieces_append_notice, hits_append, hits_map_outside, List.append_nil]

theorem canonicalText_append_notice (p : Text) :
    canonicalText (p ++ truncationNotice) = canonicalText p ++ truncationNotice := by
  have hnotice : ∀ (d : MarkerGroups → Text) (s : Text), renumberedText d (s.map .outside) = s := by
    intro d s
    induction s with
    | nil => rfl
    | cons c s ih => rw [List.map_cons, renumberedText_outside, ih]
  have happend : ∀ (d : MarkerGroups → Text) (ps qs : List (Piece Char MarkerGroups)),
      renumberedText d (ps ++ qs) = renumberedText d ps ++ renumberedText d qs := by
    intro d ps qs
    rw [renumberedText, List.map_append, List.flatMap_append]
    rfl
  rw [canonicalText, pieces_append_notice, numbers_append_notice, happend, hnotice]
  rfl

theorem pieces_cut {md : Text} (hplain : ∀ g ∈ hits (pieces md), g.link = .none) (n : Nat) :
    pieces ((canonicalText md).take n ++ truncationNotice) =
      takePieces n ((pieces md).map (renumber (rankDigits (numbers md)))) ++ truncationNotice.map .outside := by
  have hscan := scans_pieces (canonicalText md)
  rw [pieces_canonicalText hplain] at hscan
  have hcut := scans_take hscan (by
    intro g hg
    rw [hits_map_renumber] at hg
    obtain ⟨_, -, rfl⟩ := List.mem_map.1 hg
    rfl) n
  rw [pieces_append_notice]
  exact congrArg (· ++ _) hcut.scan_eq

/-- **Storing changes a canonical text exactly if it does not fit.** -/
theorem storedContent_eq_self_iff {md : Text} (hplain : ∀ g ∈ hits (pieces md), g.link = .none) :
    storedContent (canonicalText md) = canonicalText md ↔ Fits md := by
  by_cases hshort : shownLength md ≤ maxAssistantContentLength
  · rw [storedContent, if_neg (by rw [length_canonicalText]; omega)]
    exact ⟨fun _ => .inl hshort, fun _ => rfl⟩
  · rw [storedContent, if_pos (by rw [length_canonicalText]; omega)]
    constructor
    · intro hsame
      have hpieces := pieces_cut hplain maxAssistantContentLength
      rw [hsame, pieces_canonicalText hplain] at hpieces
      obtain ⟨pre, post, hsplit, -, hpost⟩ := List.map_eq_append_iff.1 hpieces
      have htext : md = pre.flatMap Piece.text ++ truncationNotice := by
        rw [← flatMap_pieces md, hsplit, List.flatMap_append, eq_of_map_renumber hpost, List.flatMap_map]
        simp [Piece.text]
      refine .inr ⟨_, htext, ?_⟩
      generalize pre.flatMap Piece.text = p at htext
      subst htext
      rw [canonicalText_append_notice] at hsame
      have hlen := congrArg List.length hsame
      rw [← canonicalText_append_notice, List.length_append, canonicalText_append_notice, List.length_append,
        List.length_take, ← canonicalText_append_notice, length_canonicalText, Nat.min_eq_left (by omega),
        length_canonicalText] at hlen
      omega
    · rintro (hfits | ⟨p, rfl, hp⟩)
      · exact absurd hfits hshort
      · have hlen : (canonicalText p).length = maxAssistantContentLength := (length_canonicalText p).trans hp
        rw [canonicalText_append_notice, List.take_left' hlen]

/-! ## Removed markers -/

/-- A marker stands in the first characters of a text. -/
def MarkerWithin (n : Nat) (s : Text) : Prop :=
  ∃ pre digits post, s = pre ++ '[' :: (digits ++ ']' :: post) ∧ Digits digits ∧ pre.length + digits.length + 2 ≤ n

theorem not_hasMarker_notice : ¬ HasMarker truncationNotice := by
  rw [← hits_pieces_eq_nil, pieces_truncationNotice, hits_map_outside]

theorem hasMarker_append_notice {s : Text} (h : HasMarker (s ++ truncationNotice)) : HasMarker s := by
  obtain ⟨pre, digits, post, heq, hdigits⟩ := h
  have hnotice : ∀ {c : Char} {xs : Text}, truncationNotice = c :: xs → c = '\n' := by
    intro c xs hcons
    exact (List.cons.inj (hcons.symm.trans (by rfl : truncationNotice = '\n' :: truncationNotice.tail))).1
  rcases List.append_eq_append_iff.1 heq with ⟨a, -, hN⟩ | ⟨c, hs, hX⟩
  · exact absurd ⟨a, digits, post, hN, hdigits⟩ not_hasMarker_notice
  · cases c with
    | nil => exact absurd (hnotice hX.symm) (by decide)
    | cons x c =>
      obtain ⟨hx, hrest⟩ := List.cons.inj hX
      subst hx
      rcases List.append_eq_append_iff.1 hrest with ⟨a, hc, ha⟩ | ⟨b, hb, hN⟩
      · cases a with
        | nil => exact absurd (hnotice ha.symm) (by decide)
        | cons y a =>
          obtain ⟨hy, -⟩ := List.cons.inj ha
          subst hy
          exact ⟨pre, digits, a, by rw [hs, hc], hdigits⟩
      · cases b with
        | nil => exact absurd (hnotice hN) (by decide)
        | cons y b =>
          have hy := hnotice hN
          subst hy
          exact absurd (hdigits.decimal '\n' (by rw [hb]; simp)) (by decide)

theorem hasMarker_storedContent (s : Text) : HasMarker (storedContent s) ↔ MarkerWithin maxAssistantContentLength s := by
  rw [storedContent]
  by_cases hlong : maxAssistantContentLength < s.length
  · rw [if_pos hlong]
    constructor
    · intro h
      obtain ⟨pre, digits, post, heq, hdigits⟩ := hasMarker_append_notice h
      refine ⟨pre, digits, post ++ s.drop maxAssistantContentLength, ?_, hdigits, ?_⟩
      · have hsplit : s = (pre ++ '[' :: (digits ++ ']' :: post)) ++ s.drop maxAssistantContentLength := by
          rw [← heq, List.take_append_drop]
        exact hsplit.trans (by simp)
      · have hlen := congrArg List.length heq
        rw [List.length_take, Nat.min_eq_left (by omega)] at hlen
        simp only [List.length_append, List.length_cons] at hlen
        omega
    · rintro ⟨pre, digits, post, rfl, hdigits, hbound⟩
      have hsplit : pre ++ '[' :: (digits ++ ']' :: post) = (pre ++ '[' :: (digits ++ [']'])) ++ post := by simp
      have hlen : (pre ++ '[' :: (digits ++ [']'])).length ≤ maxAssistantContentLength := by
        simp only [List.length_append, List.length_cons, List.length_nil]
        omega
      rw [hsplit, List.take_append, List.take_of_length_le hlen]
      refine ⟨pre, digits, post.take (maxAssistantContentLength - (pre ++ '[' :: (digits ++ [']'])).length) ++
        truncationNotice, ?_, hdigits⟩
      simp only [List.append_assoc, List.cons_append, List.nil_append]
  · rw [if_neg hlong]
    constructor
    · rintro ⟨pre, digits, post, rfl, hdigits⟩
      refine ⟨pre, digits, post, rfl, hdigits, ?_⟩
      simp only [List.length_append, List.length_cons] at hlong
      omega
    · rintro ⟨pre, digits, post, heq, hdigits, -⟩
      exact ⟨pre, digits, post, heq, hdigits⟩

/-- **Taking the markers out leaves one exactly if the text rejoins.** -/
theorem hits_degraded_eq_nil {md : Text} : hits (pieces (storedContent (outsideText md))) = [] ↔ ¬ Rejoins md := by
  rw [hits_pieces_eq_nil, hasMarker_storedContent, not_iff_not]
  constructor
  · rintro ⟨pre, digits, post, heq, hdigits, hbound⟩
    obtain ⟨ps, qs, hpieces, hps, hqs⟩ := exists_piece_of_outsides heq
    obtain ⟨ms, rs, rfl, hms, hrs⟩ := exists_piece_of_outsides hqs
    exact ⟨ps, ms, rs, hpieces, by rw [hms]; exact hdigits, by rw [hps, hms]; exact hbound⟩
  · rintro ⟨ps, ms, rs, hpieces, hdigits, hbound⟩
    refine ⟨outsides ps, outsides ms, outsides rs, ?_, hdigits, hbound⟩
    rw [outsideText, hpieces, outsides_append, outsides, outsides_append, outsides]

/-! ## The outcome of a publication -/

theorem parse_eq_nil {s : Text} : parseGeneratedMarkdownCitationMarkers s = .ok [] ↔ hits (pieces s) = [] := by
  rw [parse_eq_ok, hits_pieces, List.map_eq_nil_iff, eq_comm (a := ([] : Markers)), List.map_eq_nil_iff]
  refine ⟨And.right, fun hnil => ⟨?_, hnil⟩⟩
  intro g hg
  rw [hits_pieces, hnil] at hg
  cases hg

section Outcome

variable {candidates : List CitationCandidate} {md : Text} {t : PublicationState}

/-- Agreement of an answer that was cut would need every marker to survive and
nothing around them to go. -/
theorem stored_eq_of_agrees (hplain : ∀ g ∈ hits (pieces md), g.link = .none)
    (hcontent : t.content = storedContent (canonicalText md)) (h : PublishedAgrees candidates md t) :
    storedContent (canonicalText md) = canonicalText md := by
  obtain ⟨generated, stored, hgenerated, hstored, hagree⟩ := h
  obtain ⟨-, rfl⟩ := parse_eq_ok.1 hgenerated
  obtain ⟨-, rfl⟩ := parse_eq_ok.1 hstored
  have hgaps := hagree.outside
  have hcount := hagree.resolves.length_eq
  rw [← numbers_eq, ← numbers_eq, numbers, numbers, List.length_map, List.length_map] at hcount
  rw [textOutside_eq, textOutside_eq] at hgaps
  rw [hcontent] at hgaps hcount
  rw [storedContent] at hgaps hcount ⊢
  by_cases hlong : maxAssistantContentLength < (canonicalText md).length
  · rw [if_pos hlong] at hgaps hcount ⊢
    refine eq_of_gaps_of_hits ?_ ?_
    · rw [hgaps, pieces_canonicalText hplain, gaps_map_renumber]
    · rw [pieces_canonicalText hplain, pieces_cut hplain, hits_append, hits_map_outside, List.append_nil] at *
      refine (hits_takePieces_first _ _).eq_of_length ?_
      rw [hcount, hits_map_renumber, List.length_map]
  · rw [if_neg hlong]

theorem publishedAgrees_of_stored (hreadable : Readable md) (hplain : ∀ g ∈ hits (pieces md), g.link = .none)
    (hcontent : t.content = canonicalText md) (hlength : (canonicalText md).length < 10 ^ 5)
    (hcount : (citationEdges t).length = (firstOccurrences (numbers md)).length)
    (hcites : ∀ n ∈ numbers md, ∃ e ∈ citationEdges t, CitesCandidate candidates t.retrievals e (rank (numbers md) n) n) :
    PublishedAgrees candidates md t := by
  refine ⟨_, _, parse_eq_ok.2 ⟨hreadable, rfl⟩,
    parse_eq_ok.2 ⟨by rw [hcontent]; exact readable_canonicalText hplain hlength, rfl⟩, ?_⟩
  have hnumbers : ((finditer markerRe 0 0 t.content).map toMarker).map (·.ordinal) =
      (numbers md).map (rank (numbers md)) := by
    rw [← numbers_eq, hcontent, numbers_canonicalText hplain]
  constructor
  · intro m hm
    obtain ⟨found, hfound, rfl⟩ := List.mem_map.1 hm
    have hhit : found.group ∈ hits (pieces (canonicalText md)) := by
      rw [hits_pieces, ← hcontent]
      exact List.mem_map_of_mem hfound
    rw [pieces_canonicalText hplain, hits_map_renumber] at hhit
    obtain ⟨_, -, hgroup⟩ := List.mem_map.1 hhit
    rw [toMarker, ← hgroup]
    rfl
  · rw [hnumbers, firstOccurrences_map_rank, hcount]
  · rw [textOutside_eq, textOutside_eq, hcontent, pieces_canonicalText hplain, gaps_map_renumber]
  · rw [hnumbers, ← numbers_eq, List.forall₂_map_left_iff, List.forall₂_same]
    exact hcites

end Outcome

theorem publishChatRun_eq_ok {w : GraphView} {newId : Nat → Uuid} {md : Text} {s t : PublicationState}
    {result : CanonicalCitationResult} :
    publishChatRun w newId md s = .ok (t, result) ↔
      ∃ u, publishChatCitations w newId md s = .ok (u, result) ∧ t = finalizeRun result.contentMd u := by
  rw [publishChatRun, bind_eq_ok]
  constructor
  · rintro ⟨⟨u, r⟩, hu, h⟩
    cases h
    exact ⟨u, hu, rfl⟩
  · rintro ⟨u, hu, rfl⟩
    exact ⟨⟨u, result⟩, hu, rfl⟩

section Outcomes

variable {w : GraphView} {newId : Nat → Uuid} {candidates : List CitationCandidate} {md : Text} {s : PublicationState}

theorem readable_of_agrees (h : PublicationAgrees w newId candidates md s) : Readable md := by
  obtain ⟨t, result, hok, -⟩ := h
  obtain ⟨u, hu, -⟩ := publishChatRun_eq_ok.1 hok
  obtain ⟨_, -, hu⟩ := bind_eq_ok.1 hu
  obtain ⟨_, hcanonical, -⟩ := bind_eq_ok.1 hu
  exact readable_of_canonicalize hcanonical

variable (hactive : s.terminal = false) (hids : FreshIds newId s.edges)
  (hread : readCandidates s.retrievals.rows = .ok candidates)
  (hdense : denseOrdinals (candidates.map CitationCandidate.candidateOrdinal) = true) (hreadable : Readable md)

include hids hread hdense hreadable

include hactive in
theorem agrees_iff_fits (haccepted : Accepted (candidates.map CitationCandidate.candidateOrdinal) md)
    (hcites : CitesWell w s candidates md) : PublicationAgrees w newId candidates md s ↔ Fits md := by
  have hplain := plain_of_accepted haccepted
  obtain ⟨edges, retrievals, hpublish, hcount, hcandidates⟩ :=
    exists_published (w := w) hread hdense hreadable hids haccepted hcites
  have hfinal : finalizeRun (canonicalText md) { s with edges, retrievals } =
      { s with edges, retrievals, content := storedContent (canonicalText md), terminal := true } := by
    rw [finalizeRun, if_neg (by simp [hactive])]
  rw [← storedContent_eq_self_iff hplain]
  constructor
  · rintro ⟨t, result, hok, hagree⟩
    obtain ⟨u, hu, rfl⟩ := publishChatRun_eq_ok.1 hok
    obtain ⟨rfl, rfl⟩ := Prod.mk.inj (Except.ok.inj (hpublish.symm.trans hu))
    exact stored_eq_of_agrees hplain (by rw [CanonicalCitationResult.contentMd, hfinal]) hagree
  · intro hstored
    refine ⟨_, _, publishChatRun_eq_ok.2 ⟨_, hpublish, rfl⟩, ?_⟩
    rw [CanonicalCitationResult.contentMd, hfinal, hstored]
    refine publishedAgrees_of_stored hreadable hplain rfl ?_ hcount hcandidates
    rw [← hstored, storedContent]
    by_cases hlong : maxAssistantContentLength < (canonicalText md).length
    · rw [if_pos hlong, List.length_append, List.length_take, Nat.min_eq_left (by omega)]
      decide
    · rw [if_neg hlong]
      exact Nat.lt_of_le_of_lt (Nat.not_lt.1 hlong) (by decide)

theorem not_agrees_of_uncitable (haccepted : Accepted (candidates.map CitationCandidate.candidateOrdinal) md)
    (hcites : ¬ CitesWell w s candidates md) : ¬ PublicationAgrees w newId candidates md s := by
  rintro ⟨t, result, hok, hagree⟩
  obtain ⟨u, hu, rfl⟩ := publishChatRun_eq_ok.1 hok
  have hbad : ∃ c ∈ candidates, c.candidateOrdinal ∈ numbers md ∧ ¬ (c.target ≠ s.messageRef ∧ Citable w c.target) := by
    by_contra hnone
    exact hcites fun c hc hn => not_not.1 fun h => hnone ⟨c, hc, hn, h⟩
  obtain ⟨rfl, hnil⟩ := citationEdges_eq_nil_of_uncitable hread hdense hreadable hids haccepted hbad hu
  obtain ⟨generated, stored, hgenerated, -, hmarkers⟩ := hagree
  obtain ⟨-, rfl⟩ := parse_eq_ok.1 hgenerated
  have hedges : citationEdges (finalizeRun (canonicalText md) u) = [] := by
    rw [finalizeRun]
    split
    · exact hnil
    · exact hnil
  obtain ⟨c, -, hn, -⟩ := hbad
  have hresolves := hmarkers.resolves
  rw [← numbers_eq] at hresolves
  obtain ⟨_, -, e, he, -⟩ := exists_of_forall₂ hresolves hn
  rw [CanonicalCitationResult.contentMd, hedges] at he
  cases he

include hactive in
theorem agrees_iff_not_rejoins (haccepted : ¬ Accepted (candidates.map CitationCandidate.candidateOrdinal) md) :
    PublicationAgrees w newId candidates md s ↔ ¬ Rejoins md := by
  obtain ⟨edges, retrievals, detail, hpublish, hnil⟩ := exists_degraded (w := w) hread hdense hreadable hids haccepted
  have hfinal : finalizeRun (outsideText md) { s with edges, retrievals } =
      { s with edges, retrievals, content := storedContent (outsideText md), terminal := true } := by
    rw [finalizeRun, if_neg (by simp [hactive])]
  rw [← hits_degraded_eq_nil, ← parse_eq_nil]
  constructor
  · rintro ⟨t, result, hok, hagree⟩
    obtain ⟨u, hu, rfl⟩ := publishChatRun_eq_ok.1 hok
    obtain ⟨rfl, rfl⟩ := Prod.mk.inj (Except.ok.inj (hpublish.symm.trans hu))
    have hparse := hagree.1
    rwa [CanonicalCitationResult.contentMd, hfinal] at hparse
  · intro hparse
    refine ⟨_, _, publishChatRun_eq_ok.2 ⟨_, hpublish, rfl⟩, ?_⟩
    rw [CanonicalCitationResult.contentMd, hfinal]
    exact ⟨hparse, hnil⟩

end Outcomes

/-- **Publication agrees exactly on the texts that publish well.** -/
theorem publication_agrees_iff (w : GraphView) (newId : Nat → Uuid) (candidates : List CitationCandidate) (md : Text)
    (s : PublicationState) (hactive : s.terminal = false) (hids : FreshIds newId s.edges)
    (hread : readCandidates s.retrievals.rows = .ok candidates)
    (hdense : denseOrdinals (candidates.map CitationCandidate.candidateOrdinal) = true) :
    PublicationAgrees w newId candidates md s ↔ PublishesWell w s candidates md := by
  constructor
  · intro hagree
    have hreadable := readable_of_agrees hagree
    refine ⟨hreadable, fun haccepted => ?_, fun hrefused => ?_⟩
    · have hcites : CitesWell w s candidates md := by
        by_contra hcites
        exact not_agrees_of_uncitable hids hread hdense hreadable haccepted hcites hagree
      exact ⟨hcites, (agrees_iff_fits hactive hids hread hdense hreadable haccepted hcites).1 hagree⟩
    · exact (agrees_iff_not_rejoins hactive hids hread hdense hreadable hrefused).1 hagree
  · intro hwell
    by_cases haccepted : Accepted (candidates.map CitationCandidate.candidateOrdinal) md
    · obtain ⟨hcites, hfits⟩ := hwell.accepted haccepted
      exact (agrees_iff_fits hactive hids hread hdense hwell.readable haccepted hcites).2 hfits
    · exact (agrees_iff_not_rejoins hactive hids hread hdense hwell.readable haccepted).2 (hwell.refused haccepted)

/-! ## A marker that removal makes -/

/-- An answer with one retrieval, of a visible page. -/
def answered : PublicationState where
  ownerUserId := 1
  assistantMessageId := 2
  terminal := false
  content := []
  retrievals := ⟨[⟨7, .some 1, .some ⟨.page, 5⟩, ⟨.none⟩, .none⟩], by decide⟩
  edges := Store.empty

def allVisible : GraphView := ⟨fun _ => true, 0⟩

theorem publication_agrees_sample :
    PublicationAgrees allVisible id [⟨1, 7, ⟨.page, 5⟩, ⟨.none⟩⟩] "So it is [1].".toList answered := by
  refine (publication_agrees_iff allVisible id _ _ answered rfl ⟨Function.injective_id, by simp [answered]⟩ (by decide) (by decide)).2
    ⟨?_, fun _ => ⟨?_, .inl ?_⟩, fun hrefused => absurd ?_ hrefused⟩
  · unfold Readable
    decide +kernel
  · intro c hc _
    rw [List.mem_singleton] at hc
    subst hc
    exact ⟨by decide, .inr rfl⟩
  · unfold shownLength
    decide +kernel
  · decide +kernel

theorem removal_makes_marker :
    ¬ ∀ (w : GraphView) (newId : Nat → Uuid) (candidates : List CitationCandidate) (md : Text) (s : PublicationState),
      s.terminal = false → FreshIds newId s.edges → readCandidates s.retrievals.rows = .ok candidates →
        denseOrdinals (candidates.map CitationCandidate.candidateOrdinal) = true →
          PublicationAgrees w newId candidates md s := by
  intro hall
  obtain ⟨t, result, hok, hagree⟩ := hall allVisible id [⟨1, 7, ⟨.page, 5⟩, ⟨.none⟩⟩] "See [[9]1].".toList answered rfl
    ⟨Function.injective_id, by simp [answered]⟩ (by decide) (by decide)
  have hrun : (publishChatRun allVisible id "See [[9]1].".toList answered).map (fun r => (r.1.content, r.2)) =
      .ok ("See [1].".toList, .degraded "See [1].".toList "unknown_markers=[9]".toList) := by decide +kernel
  rw [hok] at hrun
  obtain ⟨hcontent, rfl⟩ := Prod.mk.inj (Except.ok.inj hrun)
  have hparse := hagree.1
  rw [hcontent] at hparse
  have hmarker : parseGeneratedMarkdownCitationMarkers "See [1].".toList = .ok [⟨1, 4, 7, false⟩] := by decide +kernel
  rw [hmarker] at hparse
  cases hparse

end Nexus.Citations
