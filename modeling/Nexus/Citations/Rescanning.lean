/-
How a scanned text scans again after its plain markers are renumbered, after
it is cut short, and after a line is added.

Whether a marker begins at a bracket depends on the text after it only through
its first character and the first that is no digit; whether it is linked, only
through its first character and the first that ends a link. Renumbering plain
markers changes none of these, and cutting a text can only take them away.
-/
import Nexus.Citations.MarkerFacts

namespace Nexus.Citations
open FindIter

/-! ## What a match looks at -/

/-- A marker begins at a bracket before this text. -/
def Opens (s : Text) : Prop :=
  (∃ d, s.head? = .some d ∧ isDecimal d = true) ∧ s.find? (fun c => !isDecimal c) = .some ']'

/-- A marker before this text is linked. -/
def Links (s : Text) : Prop := s.head? = .some '(' ∧ s.find? endsLink = .some ')'

theorem eq_of_find? {p : Char → Bool} {s : Text} {c : Char} (h : s.find? p = .some c) :
    ∃ xs ys, s = xs ++ c :: ys ∧ (∀ x ∈ xs, p x = false) ∧ p c = true := by
  obtain ⟨hc, xs, ys, rfl, hxs⟩ := List.find?_eq_some_iff_append.1 h
  exact ⟨xs, ys, rfl, fun x hx => by simpa using hxs x hx, hc⟩

theorem find?_append_cons {p : Char → Bool} {xs ys : Text} {c : Char} (hxs : ∀ x ∈ xs, p x = false) (hc : p c = true) :
    (xs ++ c :: ys).find? p = .some c :=
  List.find?_eq_some_iff_append.2 ⟨hc, xs, ys, rfl, fun x hx => by simp [hxs x hx]⟩

theorem linkGroup_eq_none {s : Text} : linkGroup s = .none ↔ ¬ Links s := by
  constructor
  · rintro hnone ⟨hhead, hfind⟩
    cases s with
    | nil => cases hhead
    | cons c s =>
      obtain rfl : c = '(' := by simpa using hhead
      rw [List.find?_cons_of_neg (by decide)] at hfind
      obtain ⟨link, rest, rfl, hlink, -⟩ := eq_of_find? hfind
      rw [linkGroup_eq_some.2 ⟨hlink, rest, rfl⟩] at hnone
      cases hnone
  · intro hno
    cases hlink : linkGroup s with
    | none => rfl
    | some link =>
      obtain ⟨hall, rest, rfl⟩ := linkGroup_eq_some.1 hlink
      refine absurd ⟨rfl, ?_⟩ hno
      rw [List.find?_cons_of_neg (by decide)]
      exact find?_append_cons hall (by decide)

theorem markerRe_eq_none {c : Char} {s : Text} : markerRe (c :: s) = .none ↔ ¬ (c = '[' ∧ Opens s) := by
  constructor
  · rintro hnone ⟨rfl, ⟨d, hhead, hd⟩, hfind⟩
    obtain ⟨digits, rest, rfl, hdigits, -⟩ := eq_of_find? hfind
    have hne : digits ≠ [] := by
      rintro rfl
      obtain rfl : ']' = d := by simpa using hhead
      exact absurd hd (by decide)
    rw [markerRe_marker ⟨hne, fun c hc => by simpa using hdigits c hc⟩] at hnone
    cases hnone
  · intro hno
    cases hmatch : markerRe (c :: s) with
    | none => rfl
    | some found =>
      obtain ⟨hdigits, hall, -, rest, hs, -⟩ := markerRe_eq_some.1 hmatch
      obtain ⟨rfl, rfl⟩ := List.cons.inj hs
      obtain ⟨d, ds, hds⟩ := List.exists_cons_of_ne_nil hdigits
      refine absurd ⟨rfl, ⟨d, by rw [hds]; rfl, hall d (by rw [hds]; exact List.mem_cons_self)⟩, ?_⟩ hno
      exact find?_append_cons (fun c hc => by simp [hall c hc]) (by decide)

theorem endsLink_of_isDecimal {c : Char} (h : isDecimal c = true) : endsLink c = false := by
  by_contra hend
  simp only [endsLink, Bool.or_eq_false_iff, beq_eq_false_iff_ne, not_and_or, not_not] at hend
  rcases hend with rfl | rfl <;> exact absurd h (by decide)

/-! ## Plain markers -/

def plainPiece (digits : Text) : Piece Char MarkerGroups := .hit ⟨digits, .none⟩ ('[' :: (digits ++ [']']))

theorem scans_outside {c : Char} {s : Text} {ps : List (Piece Char MarkerGroups)} (h : ¬ (c = '[' ∧ Opens s))
    (hs : Scans markerRe s ps) : Scans markerRe (c :: s) (.outside c :: ps) := .outside (markerRe_eq_none.2 h) hs

theorem scans_plain {digits s : Text} {ps : List (Piece Char MarkerGroups)} (hdigits : Digits digits) (hlink : ¬ Links s)
    (hs : Scans markerRe s ps) : Scans markerRe ('[' :: (digits ++ ']' :: s)) (plainPiece digits :: ps) := by
  have hmatch : markerRe ('[' :: ((digits ++ [']']) ++ s)) = .some (⟨digits, .none⟩, (digits ++ [']']).length) :=
    markerRe_eq_some.2 ⟨hdigits.ne_nil, hdigits.decimal, by simp [MarkerGroups.text, linkText], s, by simp,
      linkGroup_eq_none.2 hlink⟩
  have hscan := Scans.hit hmatch hs
  rwa [List.append_assoc, List.singleton_append] at hscan

theorem plain_induction {motive : Text → List (Piece Char MarkerGroups) → Prop} (nil : motive [] [])
    (outside : ∀ {c s ps}, ¬ (c = '[' ∧ Opens s) → Scans markerRe s ps → motive s ps → motive (c :: s) (.outside c :: ps))
    (marker : ∀ {digits s ps}, Digits digits → ¬ Links s → Scans markerRe s ps → motive s ps →
      motive ('[' :: (digits ++ ']' :: s)) (plainPiece digits :: ps))
    {s : Text} {ps : List (Piece Char MarkerGroups)} (h : Scans markerRe s ps) (hplain : ∀ g ∈ hits ps, g.link = .none) :
    motive s ps := by
  induction h with
  | nil => exact nil
  | outside hmatch hs ih => exact outside (markerRe_eq_none.1 hmatch) hs (ih hplain)
  | @hit c t s g ps hmatch hs ih =>
    obtain ⟨hne, hall, hlen, rest, htext, hlink⟩ := markerRe_eq_some.1 hmatch
    have hnone : g.link = .none := hplain g List.mem_cons_self
    obtain ⟨digits, link⟩ := g
    cases hnone
    obtain ⟨rfl, hcons⟩ := List.cons.inj htext
    have hsplit : t ++ s = (digits ++ [']']) ++ rest := by rw [hcons, List.append_assoc, List.singleton_append]
    obtain ⟨rfl, rfl⟩ := List.append_inj hsplit (by simpa [MarkerGroups.text, linkText] using hlen)
    have hrest := ih fun g hg => hplain g (List.mem_cons_of_mem _ hg)
    rw [List.append_assoc, List.singleton_append]
    exact marker ⟨hne, hall⟩ (linkGroup_eq_none.1 hlink) hs hrest

/-! ## Renumbering -/

/-- A piece whose marker, if it is one, now writes what `d` says. -/
def renumber (d : MarkerGroups → Text) : Piece Char MarkerGroups → Piece Char MarkerGroups
  | .outside c => .outside c
  | .hit g _ => plainPiece (d g)

section Renumber

variable {d : MarkerGroups → Text} {s : Text} {ps : List (Piece Char MarkerGroups)}

def renumberedText (d : MarkerGroups → Text) (ps : List (Piece Char MarkerGroups)) : Text :=
  (ps.map (renumber d)).flatMap Piece.text

@[simp] theorem renumberedText_outside (c : Char) : renumberedText d (.outside c :: ps) = c :: renumberedText d ps := rfl

@[simp] theorem renumberedText_plain (digits : Text) :
    renumberedText d (plainPiece digits :: ps) = '[' :: (d ⟨digits, .none⟩ ++ ']' :: renumberedText d ps) := by
  simp [renumberedText, renumber, plainPiece, Piece.text]

theorem renumberedText_eq : renumberedText d ps = ps.flatMap (replaceHits fun g => '[' :: (d g ++ [']'])) := by
  rw [renumberedText, List.flatMap_map]
  refine List.flatMap_congr fun piece _ => ?_
  cases piece <;> rfl

theorem head?_renumberedText (h : Scans markerRe s ps) (hplain : ∀ g ∈ hits ps, g.link = .none) :
    (renumberedText d ps).head? = s.head? := by
  refine plain_induction (motive := fun s ps => (renumberedText d ps).head? = s.head?) rfl ?_ ?_ h hplain
  · intro c s ps _ _ _
    rfl
  · intro digits s ps _ _ _ _
    rw [renumberedText_plain, List.head?_cons, List.head?_cons]

theorem find?_renumberedText {p : Char → Bool} (hd : ∀ g, Digits (d g))
    (hp : p '[' = true ∨ p '[' = false ∧ p ']' = false ∧ ∀ c, isDecimal c = true → p c = false)
    (h : Scans markerRe s ps) (hplain : ∀ g ∈ hits ps, g.link = .none) :
    (renumberedText d ps).find? p = s.find? p := by
  refine plain_induction (motive := fun s ps => (renumberedText d ps).find? p = s.find? p) rfl ?_ ?_ h hplain
  · intro c s ps _ _ ih
    rw [renumberedText_outside, List.find?_cons, List.find?_cons, ih]
  · intro digits s ps hdigits _ _ ih
    rw [renumberedText_plain]
    rcases hp with hp | ⟨hopen, hclose, hdecimal⟩
    · rw [List.find?_cons_of_pos hp, List.find?_cons_of_pos hp]
    · have hmarker : ∀ ds : Text, Digits ds → ∀ t : Text, ('[' :: (ds ++ ']' :: t)).find? p = t.find? p := by
        intro ds hds t
        rw [List.find?_cons_of_neg (by simp [hopen]), List.find?_append,
          List.find?_eq_none.2 fun c hc => by simp [hdecimal c (hds.decimal c hc)], Option.none_or,
          List.find?_cons_of_neg (by simp [hclose])]
      rw [hmarker digits hdigits s, hmarker _ (hd ⟨digits, .none⟩), ih]

/-- **A renumbered text scans to the renumbered pieces.** -/
theorem scans_renumberedText (hd : ∀ g, Digits (d g)) (h : Scans markerRe s ps) (hplain : ∀ g ∈ hits ps, g.link = .none) :
    Scans markerRe (renumberedText d ps) (ps.map (renumber d)) := by
  have hgoal : (∀ g ∈ hits ps, g.link = .none) → Scans markerRe (renumberedText d ps) (ps.map (renumber d)) := by
    refine plain_induction (motive := fun s ps => (∀ g ∈ hits ps, g.link = .none) →
      Scans markerRe (renumberedText d ps) (ps.map (renumber d))) (fun _ => .nil) ?_ ?_ h hplain
    · intro c s ps hnone hs ih hplain
      rw [renumberedText_outside]
      refine scans_outside (fun hopens => hnone ⟨hopens.1, ?_⟩) (ih hplain)
      obtain ⟨-, ⟨digit, hhead, hdigit⟩, hfind⟩ := hopens
      rw [head?_renumberedText hs hplain] at hhead
      rw [find?_renumberedText hd (.inl (by decide)) hs hplain] at hfind
      exact ⟨⟨digit, hhead, hdigit⟩, hfind⟩
    · intro digits s ps _ hlink hs ih hplain
      have hrest : ∀ g ∈ hits ps, g.link = .none := fun g hg => hplain g (List.mem_cons_of_mem _ hg)
      rw [renumberedText_plain]
      refine scans_plain (hd ⟨digits, .none⟩) (fun hlinks => hlink ⟨?_, ?_⟩) (ih hrest)
      · rw [← head?_renumberedText hs hrest]
        exact hlinks.1
      · rw [← find?_renumberedText hd (.inr ⟨by decide, by decide, fun _ hc => endsLink_of_isDecimal hc⟩) hs hrest]
        exact hlinks.2
  exact hgoal hplain

end Renumber

/-! ## Cutting and adding lines -/

theorem opens_of_take {s : Text} {n : Nat} (h : Opens (s.take n)) : Opens s := by
  obtain ⟨⟨d, hhead, hd⟩, hfind⟩ := h
  refine ⟨⟨d, ?_, hd⟩, (List.take_prefix n s).find?_eq_some hfind⟩
  obtain ⟨t, ht⟩ := List.head?_eq_some_iff.1 hhead
  rw [← List.take_append_drop n s, ht]
  rfl

theorem links_of_take {s : Text} {n : Nat} (h : Links (s.take n)) : Links s := by
  refine ⟨?_, (List.take_prefix n s).find?_eq_some h.2⟩
  obtain ⟨t, ht⟩ := List.head?_eq_some_iff.1 h.1
  rw [← List.take_append_drop n s, ht]
  rfl

theorem scans_of_not_mem {s : Text} (h : ']' ∉ s) : Scans markerRe s (s.map .outside) := by
  induction s with
  | nil => exact .nil
  | cons c s ih =>
    have hs : ']' ∉ s := fun hmem => h (List.mem_cons_of_mem _ hmem)
    refine scans_outside (fun hopens => ?_) (ih hs)
    exact hs (List.mem_of_find?_eq_some hopens.2.2)

theorem scans_take {s : Text} {ps : List (Piece Char MarkerGroups)} (h : Scans markerRe s ps)
    (hplain : ∀ g ∈ hits ps, g.link = .none) (n : Nat) : Scans markerRe (s.take n) (takePieces n ps) := by
  refine plain_induction (motive := fun s ps => ∀ n, Scans markerRe (s.take n) (takePieces n ps)) ?_ ?_ ?_ h hplain n
  · intro n
    cases n <;> exact .nil
  · intro c s ps hnone _ ih n
    cases n with
    | zero => exact .nil
    | succ n => exact scans_outside (fun hopens => hnone ⟨hopens.1, opens_of_take hopens.2⟩) (ih n)
  · intro digits s ps hdigits hlink _ ih n
    have htext : '[' :: (digits ++ ']' :: s) = ('[' :: (digits ++ [']'])) ++ s := by simp
    cases n with
    | zero => exact .nil
    | succ n =>
      rw [plainPiece, takePieces]
      by_cases hfits : ('[' :: (digits ++ [']'])).length ≤ n + 1
      · rw [if_pos hfits, htext, List.take_append, List.take_of_length_le hfits, List.cons_append, List.append_assoc]
        exact scans_plain hdigits (fun hlinks => hlink (links_of_take hlinks)) (ih _)
      · rw [if_neg hfits, htext, List.take_append_of_le_length (by omega)]
        refine scans_of_not_mem ?_
        simp only [List.length_cons, List.length_append, List.length_nil, not_le] at hfits
        rw [List.take_succ_cons, List.take_append_of_le_length (by omega)]
        intro hmem
        rcases List.mem_cons.1 hmem with hbracket | hmem
        · exact absurd hbracket (by decide)
        · exact absurd (hdigits.decimal _ (List.mem_of_mem_take hmem)) (by decide)

theorem find?_append_newline {p : Char → Bool} (hp : p '\n' = true) (s t : Text) {c : Char} (hc : c ≠ '\n')
    (h : (s ++ '\n' :: t).find? p = .some c) : s.find? p = .some c := by
  rw [List.find?_append, List.find?_cons_of_pos hp] at h
  cases hs : s.find? p with
  | none =>
    rw [hs] at h
    exact absurd (Option.some.inj h).symm hc
  | some d =>
    rw [hs] at h
    exact h

theorem head?_append_newline {s t : Text} {c : Char} (hc : c ≠ '\n') (h : (s ++ '\n' :: t).head? = .some c) :
    s.head? = .some c := by
  cases s with
  | nil => exact absurd (Option.some.inj h).symm hc
  | cons d s => exact h

theorem linkGroup_append_newline (s t : Text) : linkGroup (s ++ '\n' :: t) = linkGroup s := by
  cases hlink : linkGroup s with
  | some link =>
    obtain ⟨hall, rest, rfl⟩ := linkGroup_eq_some.1 hlink
    exact linkGroup_eq_some.2 ⟨hall, rest ++ '\n' :: t, by simp⟩
  | none =>
    refine linkGroup_eq_none.2 fun hlinks => linkGroup_eq_none.1 hlink ?_
    exact ⟨head?_append_newline (by decide) hlinks.1, find?_append_newline (by decide) s t (by decide) hlinks.2⟩

theorem scans_append_newline {s t : Text} {ps qs : List (Piece Char MarkerGroups)} (h : Scans markerRe s ps)
    (ht : Scans markerRe ('\n' :: t) qs) : Scans markerRe (s ++ '\n' :: t) (ps ++ qs) := by
  induction h with
  | nil => exact ht
  | @outside c s ps hmatch _ ih =>
    refine scans_outside (fun hopens => markerRe_eq_none.1 hmatch ⟨hopens.1, ?_, ?_⟩) ih
    · obtain ⟨d, hhead, hd⟩ := hopens.2.1
      refine ⟨d, head?_append_newline (fun hnl => ?_) hhead, hd⟩
      rw [hnl] at hd
      exact absurd hd (by decide)
    · exact find?_append_newline (by decide) s t (by decide) hopens.2.2
  | @hit c u s g ps hmatch _ ih =>
    obtain ⟨hne, hall, hlen, rest, htext, hlink⟩ := markerRe_eq_some.1 hmatch
    have hmatch' : markerRe (c :: (u ++ (s ++ '\n' :: t))) = .some (g, u.length) := by
      refine markerRe_eq_some.2 ⟨hne, hall, hlen, rest ++ '\n' :: t, ?_, ?_⟩
      · rw [← List.append_assoc, ← List.cons_append, htext]
        simp
      · rw [linkGroup_append_newline, hlink]
    rw [List.cons_append, List.append_assoc]
    exact .hit hmatch' ih

end Nexus.Citations
