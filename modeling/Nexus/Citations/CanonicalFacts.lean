/-
What canonicalization returns, as a function of the pieces of the text: the
markers renumbered by the first use of their candidates, or taken out.
-/
import Mathlib.Data.List.Dedup
import Nexus.Citations.Rescanning

namespace Nexus.Citations
open FindIter ExceptFacts

/-! ## Parsing -/

def toMarker (m : Match MarkerGroups) : GeneratedMarkdownCitationMarker :=
  ⟨digitsValue m.group.digits, m.start, m.stop, m.group.link.isSome⟩

/-- `int` reads the number of every marker. -/
def Readable (s : Text) : Prop := ∀ g ∈ hits (pieces s), g.digits.length ≤ maxStrDigits

def numbers (s : Text) : List Nat := (hits (pieces s)).map fun g => digitsValue g.digits

theorem parseMarker_eq_ok {m : Match MarkerGroups} {marker : GeneratedMarkdownCitationMarker} :
    parseMarker m = .ok marker ↔ m.group.digits.length ≤ maxStrDigits ∧ marker = toMarker m := by
  rw [parseMarker, map_eq_ok]
  constructor
  · rintro ⟨n, hn, rfl⟩
    obtain ⟨hlen, rfl⟩ := pyInt_eq_ok.1 hn
    exact ⟨hlen, rfl⟩
  · rintro ⟨hlen, rfl⟩
    exact ⟨_, pyInt_eq_ok.2 ⟨hlen, rfl⟩, rfl⟩

theorem hits_pieces (s : Text) : hits (pieces s) = (finditer markerRe 0 0 s).map Match.group :=
  ((scans_pieces s).map_group 0).symm

theorem parse_eq_ok {s : Text} {markers : Markers} :
    parseGeneratedMarkdownCitationMarkers s = .ok markers ↔
      Readable s ∧ markers = (finditer markerRe 0 0 s).map toMarker := by
  rw [parseGeneratedMarkdownCitationMarkers, mapM_eq_ok, Readable, hits_pieces]
  simp only [parseMarker_eq_ok, List.mem_map, forall_exists_index, and_imp, forall_apply_eq_imp_iff₂]
  generalize finditer markerRe 0 0 s = ms
  constructor
  · intro h
    induction h with
    | nil => simp
    | cons hm _ ih =>
      obtain ⟨hlen, rfl⟩ := hm
      obtain ⟨hrest, rfl⟩ := ih
      exact ⟨by simpa using ⟨hlen, hrest⟩, rfl⟩
  · rintro ⟨hlen, rfl⟩
    induction ms with
    | nil => exact .nil
    | cons m ms ih =>
      simp only [List.mem_cons, forall_eq_or_imp] at hlen
      exact .cons ⟨hlen.1, rfl⟩ (ih hlen.2)

theorem numbers_eq (s : Text) : numbers s = ((finditer markerRe 0 0 s).map toMarker).map (·.ordinal) := by
  rw [numbers, hits_pieces, List.map_map, List.map_map]
  rfl

/-! ## First uses -/

/-- The numbers of a list in the order of their first occurrence. -/
def firstOccurrences (ns : List Nat) : List Nat := ns.foldl (fun seen n => if n ∈ seen then seen else seen ++ [n]) []

/-- Where a number first occurs among the distinct numbers of a list, from 1. -/
def rank (ns : List Nat) (n : Nat) : Nat := (firstOccurrences ns).idxOf n + 1

def rankedFrom (k : Nat) (ns : List Nat) : List CanonicalCitation := ns.mapIdx fun i n => ⟨n, i + k⟩

theorem foldl_firstOccurrences (ns seen : List Nat) :
    ns.foldl setDefault (rankedFrom 1 seen) =
      rankedFrom 1 (ns.foldl (fun seen n => if n ∈ seen then seen else seen ++ [n]) seen) := by
  have hordinals : ∀ seen : List Nat, (rankedFrom 1 seen).map CanonicalCitation.candidateOrdinal = seen := by
    intro seen
    refine List.ext_getElem (by simp [rankedFrom]) fun i _ _ => ?_
    simp [rankedFrom]
  induction ns generalizing seen with
  | nil => rfl
  | cons n ns ih =>
    rw [List.foldl_cons, List.foldl_cons, ← ih, setDefault, hordinals]
    by_cases hn : n ∈ seen
    · rw [if_pos hn, if_pos hn]
    · rw [if_neg hn, if_neg hn]
      simp [rankedFrom]

theorem finalOrdinals_eq (s : Text) :
    finalOrdinals ((finditer markerRe 0 0 s).map toMarker) = rankedFrom 1 (firstOccurrences (numbers s)) := by
  rw [finalOrdinals, ← numbers_eq]
  exact foldl_firstOccurrences (numbers s) []

theorem find?_rankedFrom {n : Nat} {ns : List Nat} (k : Nat) (h : n ∈ ns) :
    (rankedFrom k ns).find? (fun c => c.candidateOrdinal = n) = .some ⟨n, ns.idxOf n + k⟩ := by
  induction ns generalizing k with
  | nil => cases h
  | cons m ns ih =>
    have hcons : rankedFrom k (m :: ns) = ⟨m, k⟩ :: rankedFrom (k + 1) ns := by
      simp [rankedFrom, List.mapIdx_cons, Nat.add_assoc, Nat.add_comm 1 k]
    rw [hcons]
    by_cases hm : m = n
    · subst hm
      simp
    · have hn : n ∈ ns := by simpa [Ne.symm hm] using h
      rw [List.find?_cons_of_neg (by simpa using hm), ih (k + 1) hn, List.idxOf_cons_ne _ hm]
      congr 2
      omega

theorem mem_firstOccurrences {ns : List Nat} {n : Nat} : n ∈ firstOccurrences ns ↔ n ∈ ns := by
  have hfold : ∀ (ns seen : List Nat),
      n ∈ ns.foldl (fun seen n => if n ∈ seen then seen else seen ++ [n]) seen ↔ n ∈ seen ∨ n ∈ ns := by
    intro ns
    induction ns with
    | nil => simp
    | cons m ns ih =>
      intro seen
      rw [List.foldl_cons, ih]
      by_cases hm : m ∈ seen
      · rw [if_pos hm, List.mem_cons]
        constructor
        · rintro (h | h)
          · exact .inl h
          · exact .inr (.inr h)
        · rintro (h | rfl | h)
          · exact .inl h
          · exact .inl hm
          · exact .inr h
      · rw [if_neg hm, List.mem_append, List.mem_singleton, List.mem_cons, or_assoc]
  rw [firstOccurrences, hfold, List.mem_nil_iff, false_or]

theorem nodup_firstOccurrences (ns : List Nat) : (firstOccurrences ns).Nodup := by
  have hfold : ∀ (ns seen : List Nat), seen.Nodup →
      (ns.foldl (fun seen n => if n ∈ seen then seen else seen ++ [n]) seen).Nodup := by
    intro ns
    induction ns with
    | nil => exact fun seen h => h
    | cons m ns ih =>
      intro seen hseen
      rw [List.foldl_cons]
      by_cases hm : m ∈ seen
      · rw [if_pos hm]
        exact ih seen hseen
      · rw [if_neg hm]
        refine ih _ (List.nodup_append.2 ⟨hseen, by simp, ?_⟩)
        intro a ha b hb hab
        rw [List.mem_singleton] at hb
        exact hm (by rw [← hb, ← hab]; exact ha)
  exact hfold ns [] List.nodup_nil

theorem firstOccurrences_map {f : Nat → Nat} {ns : List Nat} (hf : ∀ a ∈ ns, ∀ b ∈ ns, f a = f b → a = b) :
    firstOccurrences (ns.map f) = (firstOccurrences ns).map f := by
  have hfold : ∀ (ns seen : List Nat), (∀ a ∈ seen ++ ns, ∀ b ∈ seen ++ ns, f a = f b → a = b) →
      (ns.map f).foldl (fun seen n => if n ∈ seen then seen else seen ++ [n]) (seen.map f) =
        (ns.foldl (fun seen n => if n ∈ seen then seen else seen ++ [n]) seen).map f := by
    intro ns
    induction ns with
    | nil => exact fun seen _ => rfl
    | cons m ns ih =>
      intro seen hinj
      have hmem : f m ∈ seen.map f ↔ m ∈ seen := by
        rw [List.mem_map]
        constructor
        · rintro ⟨a, ha, heq⟩
          rw [← hinj a (by simp [ha]) m (by simp) heq]
          exact ha
        · exact fun h => ⟨m, h, rfl⟩
      rw [List.map_cons, List.foldl_cons, List.foldl_cons]
      by_cases hm : m ∈ seen
      · rw [if_pos hm, if_pos (hmem.2 hm)]
        exact ih seen fun a ha b hb => hinj a (by grind) b (by grind)
      · rw [if_neg hm, if_neg fun h => hm (hmem.1 h), ← ih (seen ++ [m]) fun a ha b hb => hinj a (by grind) b (by grind)]
        simp
  exact hfold ns [] hf

theorem rank_inj {ns : List Nat} {a b : Nat} (ha : a ∈ ns) (h : rank ns a = rank ns b) : a = b := by
  have hidx : (firstOccurrences ns).idxOf a = (firstOccurrences ns).idxOf b := by
    unfold rank at h
    omega
  exact (List.idxOf_inj (mem_firstOccurrences.2 ha)).1 hidx

theorem firstOccurrences_map_rank (ns : List Nat) :
    firstOccurrences (ns.map (rank ns)) = List.range' 1 (firstOccurrences ns).length := by
  rw [firstOccurrences_map fun a ha b _ h => rank_inj ha h]
  refine List.ext_getElem (by simp) fun i hi _ => ?_
  rw [List.getElem_map, List.getElem_range', rank, (nodup_firstOccurrences ns).idxOf_getElem]
  omega

/-! ## Canonicalization -/

/-- Every marker is plain and names a candidate. -/
def Accepted (known : List Nat) (s : Text) : Prop :=
  ∀ g ∈ hits (pieces s), g.link = .none ∧ digitsValue g.digits ∈ known

instance (known : List Nat) (s : Text) : Decidable (Accepted known s) :=
  inferInstanceAs (Decidable (∀ g ∈ hits (pieces s), g.link = .none ∧ digitsValue g.digits ∈ known))

/-- The digits a marker carries once it is renumbered. -/
def rankDigits (ns : List Nat) (g : MarkerGroups) : Text := Nat.toDigits 10 (rank ns (digitsValue g.digits))

theorem digits_rankDigits (ns : List Nat) (g : MarkerGroups) : Digits (rankDigits ns g) := digits_toDigits _

/-- The text with its markers renumbered. -/
def canonicalText (s : Text) : Text := renumberedText (rankDigits (numbers s)) (pieces s)

def outsideText (s : Text) : Text := outsides (pieces s)

theorem rewriteMarkers_eq {s : Text} {citations : List CanonicalCitation} {f : MarkerGroups → Text} {cursor : Nat}
    {ms : List (Match MarkerGroups)}
    (h : ∀ m ∈ ms, rewrittenMarker citations (toMarker m) = .ok (f m.group)) :
    rewriteMarkers s citations cursor (ms.map toMarker) = .ok (splice f s cursor ms) := by
  induction ms generalizing cursor with
  | nil => rfl
  | cons m ms ih =>
    rw [List.map_cons, rewriteMarkers, h m List.mem_cons_self]
    have hrest := @ih m.stop fun m' hm' => h m' (List.mem_cons_of_mem _ hm')
    exact bind_eq_ok.2 ⟨_, rfl, bind_eq_ok.2 ⟨_, hrest, rfl⟩⟩

theorem flatMap_replaceHits_nil (ps : List (Piece Char MarkerGroups)) :
    ps.flatMap (replaceHits fun _ => []) = outsides ps := by
  induction ps with
  | nil => rfl
  | cons piece ps ih => cases piece <;> simp [replaceHits, outsides, ih]

theorem rewrite_removed (s : Text) :
    rewriteMarkers s [] 0 ((finditer markerRe 0 0 s).map toMarker) = .ok (outsideText s) := by
  rw [rewriteMarkers_eq (f := fun _ => []) fun _ _ => rfl, (scans_pieces s).splice_eq, flatMap_replaceHits_nil]
  rfl

theorem rewrite_renumbered (s : Text) :
    rewriteMarkers s (rankedFrom 1 (firstOccurrences (numbers s))) 0 ((finditer markerRe 0 0 s).map toMarker) =
      .ok (canonicalText s) := by
  have hspliced := (scans_pieces s).splice_eq fun g => '[' :: (rankDigits (numbers s) g ++ [']'])
  rw [← renumberedText_eq] at hspliced
  rw [rewriteMarkers_eq (f := fun g => '[' :: (rankDigits (numbers s) g ++ [']'])) ?_, hspliced]
  · rfl
  · intro m hm
    have hmem : digitsValue m.group.digits ∈ firstOccurrences (numbers s) := by
      rw [mem_firstOccurrences, numbers, hits_pieces]
      exact List.mem_map_of_mem (List.mem_map_of_mem hm)
    have hfind := find?_rankedFrom 1 hmem
    have hne : rankedFrom 1 (firstOccurrences (numbers s)) ≠ [] := by
      intro hnil
      rw [hnil] at hfind
      cases hfind
    rw [rewrittenMarker, if_neg hne, toMarker, hfind]
    rfl

theorem sortedSet_eq_nil {ns : List Nat} : sortedSet ns = [] ↔ ns = [] := by
  rw [sortedSet, ← List.length_eq_zero_iff, List.length_insertionSort, List.length_eq_zero_iff, List.dedup_eq_nil]

theorem accepted_iff {known : List Nat} {s : Text} :
    Accepted known s ↔ linkedOrdinals ((finditer markerRe 0 0 s).map toMarker) = [] ∧
      unknownOrdinals known ((finditer markerRe 0 0 s).map toMarker) = [] := by
  simp only [Accepted, linkedOrdinals, unknownOrdinals, sortedSet_eq_nil, List.map_eq_nil_iff, List.filter_eq_nil_iff,
    List.mem_map, forall_exists_index, and_imp, forall_apply_eq_imp_iff₂, hits_pieces, toMarker, decide_eq_true_eq,
    not_not, Bool.not_eq_true, Option.isSome_eq_false_iff, Option.isNone_iff_eq_none]
  exact forall₂_and

section Canonicalize

variable {s : Text} {candidates : List CitationCandidate}

theorem canonicalize_eq (hdense : denseOrdinals (candidates.map CitationCandidate.candidateOrdinal) = true)
    (hread : Readable s) :
    ∃ detail, canonicalizeChatCitations s candidates =
      .ok (if Accepted (candidates.map CitationCandidate.candidateOrdinal) s then
        .published (canonicalText s) (rankedFrom 1 (firstOccurrences (numbers s)))
      else .degraded (outsideText s) detail) := by
  have hparse := parse_eq_ok.2 ⟨hread, rfl⟩
  refine ⟨degradedDetail (linkedOrdinals ((finditer markerRe 0 0 s).map toMarker))
    (unknownOrdinals (candidates.map CitationCandidate.candidateOrdinal) ((finditer markerRe 0 0 s).map toMarker)), ?_⟩
  rw [canonicalizeChatCitations, hdense, if_neg (by decide), hparse]
  simp only [bind, Except.bind]
  by_cases haccepted : Accepted (candidates.map CitationCandidate.candidateOrdinal) s
  · obtain ⟨hlinked, hunknown⟩ := accepted_iff.1 haccepted
    rw [if_pos haccepted, hlinked, hunknown, if_neg (by simp), finalOrdinals_eq, rewrite_renumbered]
  · rw [if_neg haccepted, if_pos, rewrite_removed]
    rw [accepted_iff] at haccepted
    exact not_and_or.1 haccepted

theorem readable_of_canonicalize {result : CanonicalCitationResult}
    (h : canonicalizeChatCitations s candidates = .ok result) : Readable s := by
  obtain ⟨-, h⟩ := check_eq_ok.1 h
  obtain ⟨markers, hparse, -⟩ := bind_eq_ok.1 h
  exact (parse_eq_ok.1 hparse).1

end Canonicalize

end Nexus.Citations
