/-
The shape of a canonical text and the starts of the elements in it.

`FewBreaks` (no whitespace holds three newlines) is what collapsing gives and
trimming keeps, as trimming only takes whitespace other than newlines
(`Thinned`); `Tidy` (no whitespace beside a newline) is what trimming gives.
Every pass keeps the text and its sources of one length, so that none fails.
`Ordered` says of a walk that elements start one after the other.
-/
import Nexus.Media.Canonicalize
import Nexus.Strip
import Mathlib.Data.List.Chain
import Mathlib.Data.List.Infix

namespace Nexus.Canonicalize
open UnicodeNormal Bisection

variable {t t' l m : Text} {c d : Char}

theorem isPythonSpace_newline : isPythonSpace '\n' = true := by decide

/-! ## Slices -/

theorem drop_takeWhile (p : Char → Bool) (t : Text) : t.drop (t.takeWhile p).length = t.dropWhile p := by
  have h : t.takeWhile p ++ t.dropWhile p = t := List.takeWhile_append_dropWhile
  calc t.drop (t.takeWhile p).length = (t.takeWhile p ++ t.dropWhile p).drop (t.takeWhile p).length := by rw [h]
    _ = t.dropWhile p := List.drop_left

theorem takeWhile_dropWhile (p : Char → Bool) (t : Text) : (t.dropWhile p).takeWhile p = [] := by
  have hnot := List.head?_dropWhile_not p t
  cases h : t.dropWhile p with
  | nil => rfl
  | cons c rest =>
    rw [h] at hnot
    exact List.takeWhile_cons_of_neg (by simpa using hnot)

theorem slice_trimSpan (t : Text) : slice (trimSpan t) t = pythonStrip t := by
  have hprefix : (t.dropWhile isPythonSpace).rdropWhile isPythonSpace <+: t.dropWhile isPythonSpace :=
    List.rdropWhile_prefix isPythonSpace _
  simp only [slice, trimSpan, drop_takeWhile, List.drop_take, Nat.add_sub_cancel_left]
  exact (List.prefix_iff_eq_take.1 hprefix).symm

theorem length_slice {span : Nat × Nat} {sources : List Nat} (h : sources.length = t.length) :
    (slice span sources).length = (slice span t).length := by simp [slice, h]

/-! ## Lines -/

theorem take_lineLength (t : Text) : t.take (lineLength t) = t.takeWhile fun c => c != '\n' :=
  (List.prefix_iff_eq_take.1 (List.takeWhile_prefix _)).symm

theorem not_mem_line (t : Text) : '\n' ∉ t.take (lineLength t) := by
  rw [take_lineLength]
  intro h
  simpa using List.mem_takeWhile_imp h

theorem eq_line_append (h : lineLength t < t.length) :
    t = t.take (lineLength t) ++ '\n' :: t.drop (lineLength t + 1) := by
  have hrest : t.drop (lineLength t) = t.dropWhile fun c => c != '\n' := drop_takeWhile _ t
  have hget : t[lineLength t] = '\n' := by
    have hnot := List.head?_dropWhile_not (fun c => c != '\n') t
    rw [← hrest, List.head?_drop, List.getElem?_eq_getElem h] at hnot
    simpa using hnot
  conv_lhs => rw [← List.take_append_drop (lineLength t) t, List.drop_eq_getElem_cons h, hget]

theorem line_eq_self (h : ¬ lineLength t < t.length) : t.take (lineLength t) = t := List.take_of_length_le (by omega)

/-! ## Composition -/

theorem reorderedSources_some : ∀ {text : Text} {decomposed : List (Char × Nat)}, (decomposed.map Prod.fst).Perm text →
    ∃ r, reorderedSources decomposed text = .some r ∧ r.length = text.length
  | [], _, _ => ⟨[], rfl, rfl⟩
  | d :: text, decomposed, h => by
    have hd : d ∈ decomposed.map Prod.fst := h.mem_iff.2 (by simp)
    obtain ⟨p, hp, rfl⟩ := List.mem_map.1 hd
    obtain ⟨q, hq⟩ := Option.isSome_iff_exists.1
      (List.find?_isSome.2 ⟨p, hp, beq_self_eq_true p.1⟩ : (decomposed.find? fun q => q.1 == p.1).isSome = true)
    have hrest : ((decomposed.eraseP fun q => q.1 == p.1).map Prod.fst).Perm text := by
      have herase : (decomposed.eraseP fun q => q.1 == p.1).map Prod.fst = (decomposed.map Prod.fst).erase p.1 := by
        rw [List.erase_eq_eraseP', List.eraseP_map]
        rfl
      rw [herase]
      have hcons := h.erase p.1
      rwa [List.erase_cons_head] at hcons
    obtain ⟨r, hr, hlen⟩ := reorderedSources_some hrest
    exact ⟨q.2 :: r, by simp [reorderedSources, hq, hr], by simp [hlen]⟩

theorem sourceStart_some {n : Nat} {sources : List Nat} (hne : sources ≠ []) (hn : n ≤ sources.length) :
    ∃ source, sourceStart n sources = .some source := by
  obtain ⟨first, rest, rfl⟩ := List.exists_cons_of_ne_nil hne
  have hnot : ¬ (first :: rest).length < n := by omega
  exact ⟨((first :: rest).take n).foldl min first, by
    simp only [sourceStart, List.head?_cons, Option.bind_eq_bind, Option.bind_some, if_neg hnot]⟩

theorem normalizedSources_some {U : Ucd} : ∀ {text : Text} {reordered : List Nat},
    (text.map fun c => (U.nfd [c]).length).sum = reordered.length →
      ∃ r, normalizedSources U text reordered = .some r ∧ r.length = text.length
  | [], _, _ => ⟨[], rfl, rfl⟩
  | c :: text, reordered, h => by
    rw [List.map_cons, List.sum_cons] at h
    have hpos : 0 < (U.nfd [c]).length := List.length_pos_iff.2 (U.nfd_singleton_ne_nil c)
    have hne : reordered ≠ [] := by
      intro heq
      rw [heq, List.length_nil] at h
      omega
    obtain ⟨source, hsource⟩ := sourceStart_some hne (show (U.nfd [c]).length ≤ reordered.length by omega)
    have hrest : (text.map fun c => (U.nfd [c]).length).sum = (reordered.drop (U.nfd [c]).length).length := by
      rw [List.length_drop]
      omega
    obtain ⟨r, hr, hlen⟩ := normalizedSources_some hrest
    exact ⟨source :: r, by simp [normalizedSources, hsource, hr], by simp [hlen]⟩

/-- **Composition gives every character a source.** -/
theorem normalizeNfc_some (U : Ucd) (text : Text) : ∃ t sources, normalizeNfcWithSources U text = .some (t, sources) ∧
    sources.length = t.length := by
  simp only [normalizeNfcWithSources]
  split
  · exact ⟨[], [], rfl, rfl⟩
  split
  · exact ⟨text, List.range text.length, rfl, List.length_range⟩
  have hperm : ((text.zipIdx.flatMap fun p => (U.nfd [p.1]).map fun d => (d, p.2)).map Prod.fst).Perm (U.nfd text) := by
    have hfst : ((text.zipIdx.flatMap fun p => (U.nfd [p.1]).map fun d => (d, p.2)).map Prod.fst) =
        text.flatMap fun c => U.nfd [c] := by
      rw [List.map_flatMap]
      simp only [List.map_map, Function.comp_def, List.map_id']
      conv_rhs => rw [← List.zipIdx_map_fst 0 text, List.flatMap_map]
    rw [hfst]
    refine (List.Perm.flatMap_left text fun c _ => ?_).trans (U.perm_nfd text).symm
    simpa using U.perm_nfd [c]
  obtain ⟨reordered, hreordered, hlen⟩ := reorderedSources_some hperm
  obtain ⟨sources, hsources, hlen'⟩ := normalizedSources_some (U := U) ((U.sum_length_nfc text).trans hlen.symm)
  exact ⟨U.nfc text, sources, by simp [hreordered, hsources], hlen'⟩

/-! ## Newlines in whitespace -/

/-- The newlines in the whitespace a text starts with. -/
def leadingBreaks (t : Text) : Nat := (t.takeWhile isPythonSpace).count '\n'

/-- No whitespace of the text holds three newlines. -/
def FewBreaks : Text → Prop
  | [] => True
  | c :: t => leadingBreaks (c :: t) ≤ 2 ∧ FewBreaks t

theorem FewBreaks.leading (h : FewBreaks t) : leadingBreaks t ≤ 2 := by
  cases t with
  | nil => simp [leadingBreaks]
  | cons c t => exact h.1

theorem leadingBreaks_cons (c : Char) (t : Text) :
    leadingBreaks (c :: t) = if isPythonSpace c then leadingBreaks t + (if c = '\n' then 1 else 0) else 0 := by
  simp only [leadingBreaks, List.takeWhile_cons]
  split
  · rw [List.count_cons]
    simp
  · rfl

theorem leadingBreaks_line : ∀ {l : Text}, '\n' ∉ l → leadingBreaks (l ++ m) ≤ leadingBreaks m
  | [], _ => Nat.le_refl _
  | c :: l, h => by
    have hrest : leadingBreaks (l ++ m) ≤ leadingBreaks m := leadingBreaks_line fun hin => h (by simp [hin])
    have hne : ¬ c = '\n' := fun heq => h (by simp [heq])
    rw [List.cons_append, leadingBreaks_cons, if_neg hne]
    split <;> omega

theorem FewBreaks.line : ∀ {l : Text}, '\n' ∉ l → FewBreaks m → FewBreaks (l ++ m)
  | [], _, hm => hm
  | c :: l, h, hm => by
    have hrest : FewBreaks (l ++ m) := FewBreaks.line (fun hin => h (by simp [hin])) hm
    have hle : leadingBreaks (c :: l ++ m) ≤ leadingBreaks m := leadingBreaks_line h
    exact ⟨hle.trans hm.leading, hrest⟩

/-- What follows the newline after a line with more than whitespace does not
matter to how the text starts. -/
theorem leadingBreaks_line_newline : ∀ {l : Text} {a b : Text}, leadingBreaks (l ++ '\n' :: a) = 0 →
    leadingBreaks (l ++ '\n' :: b) = 0
  | [], _, _, h => by simp [leadingBreaks_cons, isPythonSpace_newline] at h
  | c :: l, a, b, h => by
    rw [List.cons_append, leadingBreaks_cons] at h ⊢
    split
    next hc =>
      rw [if_pos hc] at h
      have hl := leadingBreaks_line_newline (show leadingBreaks (l ++ '\n' :: a) = 0 by omega) (b := b)
      omega
    next => rfl

theorem FewBreaks.no_three : ∀ {t : Text}, FewBreaks t → ¬ ['\n', '\n', '\n'] <:+: t
  | [], _, h => by simpa using h.length_le
  | c :: t, h, hin => by
    rcases List.infix_cons_iff.1 hin with hprefix | hin
    · obtain ⟨b, hb⟩ := hprefix
      have hle := h.1
      rw [← hb] at hle
      simp [leadingBreaks_cons, isPythonSpace_newline] at hle
    · exact FewBreaks.no_three h.2 hin

/-- **Collapsing keeps text and sources together, and leaves few breaks.** -/
theorem collapse_some : ∀ (n : Nat) {text : Text} {sources : List Nat}, text.length = n → sources.length = text.length →
    ∃ t' s', collapseBlankLines text sources = .some (t', s') ∧ s'.length = t'.length ∧ FewBreaks t' ∧
      (leadingBreaks text = 0 → leadingBreaks t' = 0) := by
  intro n
  induction n using Nat.strongRecOn with
  | ind n ih =>
    intro text sources hn hlen
    rw [collapseBlankLines]
    dsimp only
    split
    next hnl =>
      have htext := eq_line_append hnl
      have hline := not_mem_line text
      split
      next hfew =>
        have hsource : sources[lineLength text]? = .some sources[lineLength text] := List.getElem?_eq_getElem (by omega)
        obtain ⟨t', s', hrec, hlen', hbreaks, hlead⟩ := @ih (text.length - (lineLength text + 1)) (by omega)
          (text.drop (lineLength text + 1)) (sources.drop (lineLength text + 1)) (by simp) (by simp [hlen])
        have hblank : leadingBreaks (text.drop (lineLength text + 1)) = 0 := by
          rw [leadingBreaks]
          omega
        refine ⟨text.take (lineLength text) ++ '\n' :: t', sources.take (lineLength text) ++ sources[lineLength text] :: s',
          by simp only [hsource, hrec, Option.bind_eq_bind, Option.bind_some], ?_, ?_, fun hzero => ?_⟩
        · simp [hlen, hlen']
        · refine FewBreaks.line hline ⟨?_, hbreaks⟩
          rw [leadingBreaks_cons, isPythonSpace_newline, hlead hblank]
          simp
        · rw [htext] at hzero
          exact leadingBreaks_line_newline hzero
      next hmany =>
        have hsource : ∃ source, ((sources.take (lineLength text + 1 +
            ((text.drop (lineLength text + 1)).takeWhile isPythonSpace).length)).drop (lineLength text)).min? = .some source := by
          refine Option.ne_none_iff_exists'.1 fun hnone => ?_
          have hnil := congrArg List.length (List.min?_eq_none_iff.1 hnone)
          simp only [List.length_drop, List.length_take, List.length_nil] at hnil
          omega
        obtain ⟨source, hsource⟩ := hsource
        have hstop : ((text.drop (lineLength text + 1)).takeWhile isPythonSpace).length ≤
            (text.drop (lineLength text + 1)).length := (List.takeWhile_prefix _).length_le
        rw [List.length_drop] at hstop
        obtain ⟨t', s', hrec, hlen', hbreaks, hlead⟩ := @ih (text.length - (lineLength text + 1 +
            ((text.drop (lineLength text + 1)).takeWhile isPythonSpace).length)) (by omega)
          (text.drop (lineLength text + 1 + ((text.drop (lineLength text + 1)).takeWhile isPythonSpace).length))
          (sources.drop (lineLength text + 1 +
            ((text.drop (lineLength text + 1)).takeWhile isPythonSpace).length)) (by simp) (by simp [hlen])
        have hblank : leadingBreaks (text.drop (lineLength text + 1 +
            ((text.drop (lineLength text + 1)).takeWhile isPythonSpace).length)) = 0 := by
          rw [← List.drop_drop, drop_takeWhile, leadingBreaks, takeWhile_dropWhile]
          rfl
        refine ⟨text.take (lineLength text) ++ '\n' :: '\n' :: t', sources.take (lineLength text) ++ source :: source :: s',
          by simp only [hsource, hrec, Option.bind_eq_bind, Option.bind_some], ?_, ?_, fun hzero => ?_⟩
        · simp [hlen, hlen']
        · refine FewBreaks.line hline ⟨?_, ?_, hbreaks⟩
          · rw [leadingBreaks_cons, leadingBreaks_cons, isPythonSpace_newline, hlead hblank]
            simp
          · rw [leadingBreaks_cons, isPythonSpace_newline, hlead hblank]
            simp
        · rw [htext] at hzero
          exact leadingBreaks_line_newline hzero
    next hnl =>
      have hline := not_mem_line text
      rw [line_eq_self hnl] at hline
      refine ⟨text, sources, rfl, hlen, ?_, id⟩
      have hfew : FewBreaks (text ++ []) := FewBreaks.line hline trivial
      rwa [List.append_nil] at hfew

/-! ## Trimming -/

/-- The second text is the first without some of its whitespace, newlines
apart. -/
inductive Thinned : Text → Text → Prop
  | nil : Thinned [] []
  | keep {t t' : Text} (c : Char) (h : Thinned t t') : Thinned (c :: t) (c :: t')
  | drop {t t' : Text} {c : Char} (hspace : isPythonSpace c = true) (hne : c ≠ '\n') (h : Thinned t t') :
    Thinned (c :: t) t'

theorem Thinned.append {a a' b b' : Text} (ha : Thinned a a') (hb : Thinned b b') : Thinned (a ++ b) (a' ++ b') := by
  induction ha with
  | nil => exact hb
  | keep c _ ih => exact .keep c ih
  | drop hspace hne _ ih => exact .drop hspace hne ih

theorem Thinned.refl : ∀ t : Text, Thinned t t
  | [] => .nil
  | c :: t => .keep c (.refl t)

theorem Thinned.erase : ∀ {t : Text}, (∀ c ∈ t, isPythonSpace c = true) → '\n' ∉ t → Thinned t []
  | [], _, _ => .nil
  | c :: t, hspace, hn =>
    .drop (hspace c (by simp)) (fun heq => hn (by simp [heq]))
      (Thinned.erase (fun d hd => hspace d (List.mem_cons_of_mem c hd)) fun hin => hn (by simp [hin]))

theorem Thinned.strip (h : '\n' ∉ t) : Thinned t (pythonStrip t) := by
  obtain ⟨a, b, ht, ha, hb⟩ := strip_split t
  have hna : '\n' ∉ a := fun hin => h (by rw [ht]; simp [hin])
  have hnb : '\n' ∉ b := fun hin => h (by rw [ht]; simp [hin])
  have hall := ((Thinned.erase ha hna).append (.refl (pythonStrip t))).append (Thinned.erase hb hnb)
  rwa [← ht, List.nil_append, List.append_nil] at hall

theorem Thinned.leadingBreaks (h : Thinned t t') : leadingBreaks t' = leadingBreaks t := by
  induction h with
  | nil => rfl
  | keep c _ ih => rw [leadingBreaks_cons, leadingBreaks_cons, ih]
  | drop hspace hne _ ih => rw [leadingBreaks_cons, hspace, if_pos rfl, if_neg hne, ih, Nat.add_zero]

theorem Thinned.fewBreaks (h : Thinned t t') (ht : FewBreaks t) : FewBreaks t' := by
  induction h with
  | nil => trivial
  | keep c h ih =>
    refine ⟨?_, ih ht.2⟩
    rw [(Thinned.keep c h).leadingBreaks]
    exact ht.1
  | drop _ _ _ ih => exact ih ht.2

/-- Whitespace beside a newline is a newline. -/
def Beside (c d : Char) : Prop := (c = '\n' → isPythonSpace d = true → d = '\n') ∧
  (d = '\n' → isPythonSpace c = true → c = '\n')

/-- No line of the text has whitespace at an edge it shares with another. -/
abbrev Tidy (t : Text) : Prop := t.IsChain Beside

theorem tidy_of_line (h : '\n' ∉ l) : Tidy l := by
  have hne : ∀ c ∈ l, c ≠ '\n' := fun c hc heq => h (heq ▸ hc)
  refine List.Pairwise.isChain (List.pairwise_of_forall_mem_list fun c hc d hd => ?_)
  exact ⟨fun heq => absurd heq (hne c hc), fun heq => absurd heq (hne d hd)⟩

theorem not_mem_strip (h : '\n' ∉ t) : '\n' ∉ pythonStrip t := by
  obtain ⟨a, b, ht, -, -⟩ := strip_split t
  intro hin
  exact h (by rw [ht]; simp [hin])

/-- **Trimming keeps text and sources together, and leaves tidy lines.** -/
theorem trimmedLines_some : ∀ (n : Nat) {text : Text} {sources : List Nat}, text.length = n → sources.length = text.length →
    ∃ t' s', trimmedLines text sources = .some (t', s') ∧ s'.length = t'.length ∧ Thinned text t' ∧ Tidy t' ∧
      ∀ c ∈ t'.head?, isPythonSpace c = true → c = '\n' := by
  intro n
  induction n using Nat.strongRecOn with
  | ind n ih =>
    intro text sources hn hlen
    rw [trimmedLines]
    dsimp only
    have hline := not_mem_line text
    have hspan : slice (trimSpan (text.take (lineLength text))) text = pythonStrip (text.take (lineLength text)) ∧
        (slice (trimSpan (text.take (lineLength text))) sources).length =
          (pythonStrip (text.take (lineLength text))).length := by
      have hle : (trimSpan (text.take (lineLength text))).2 ≤ lineLength text := by
        have hfirst : ((text.take (lineLength text)).takeWhile isPythonSpace).length ≤ (text.take (lineLength text)).length :=
          (List.takeWhile_prefix _).length_le
        have hrest := (List.rdropWhile_prefix isPythonSpace ((text.take (lineLength text)).drop
          ((text.take (lineLength text)).takeWhile isPythonSpace).length)).length_le
        simp only [trimSpan, List.length_drop, List.length_take] at hfirst hrest ⊢
        omega
      have hslice : slice (trimSpan (text.take (lineLength text))) text =
          slice (trimSpan (text.take (lineLength text))) (text.take (lineLength text)) := by
        rw [slice, slice, List.take_take, Nat.min_eq_left hle]
      refine ⟨hslice.trans (slice_trimSpan _), ?_⟩
      rw [length_slice hlen, hslice, slice_trimSpan]
    rw [hspan.1]
    split
    next hnl =>
      have hsource : sources[lineLength text]? = .some sources[lineLength text] := List.getElem?_eq_getElem (by omega)
      obtain ⟨t', s', hrec, hlen', hthin, htidy, hhead⟩ := @ih (text.length - (lineLength text + 1)) (by omega)
        (text.drop (lineLength text + 1)) (sources.drop (lineLength text + 1)) (by simp) (by simp [hlen])
      refine ⟨pythonStrip (text.take (lineLength text)) ++ '\n' :: t',
        slice (trimSpan (text.take (lineLength text))) sources ++ sources[lineLength text] :: s', by
        simp only [hsource, hrec, Option.bind_eq_bind, Option.bind_some], ?_, ?_, ?_, ?_⟩
      · simp [hspan.2, hlen']
      · conv_lhs => rw [eq_line_append hnl]
        exact (Thinned.strip hline).append (.keep '\n' hthin)
      · refine (tidy_of_line (not_mem_strip hline)).append (htidy.cons fun d hd => ⟨fun _ => hhead d hd, fun _ _ => rfl⟩) ?_
        intro c hc d hd
        obtain rfl : '\n' = d := by simpa using hd
        have hspace := strip_getLast hc
        exact ⟨fun heq => absurd (heq ▸ hspace) (by simp [isPythonSpace_newline]), fun _ hc => by simp [hspace] at hc⟩
      · intro c hc hspace
        cases hs : pythonStrip (text.take (lineLength text)) with
        | nil => simpa [hs, eq_comm] using hc
        | cons d rest =>
          have hcs : c ∈ (pythonStrip (text.take (lineLength text))).head? := by simpa [hs] using hc
          simp [strip_head hcs] at hspace
    next hnl =>
      refine ⟨_, _, rfl, hspan.2, ?_, tidy_of_line (not_mem_strip hline), fun c hc hspace => ?_⟩
      · rw [line_eq_self hnl] at hline ⊢
        exact Thinned.strip hline
      · simp [strip_head hc] at hspace

/-- `line` is a line of the text. -/
def IsLine (text line : Text) : Prop := ∃ a b, text = a ++ line ++ b ∧ '\n' ∉ line ∧ (∀ c ∈ a.getLast?, c = '\n') ∧
  ∀ c ∈ b.head?, c = '\n'

/-- What a canonical text looks like. -/
structure CanonicalShape (text : Text) : Prop where
  edges : pythonStrip text = text
  lines : ∀ line, IsLine text line → pythonStrip line = line
  breaks : ¬ ['\n', '\n', '\n'] <:+: text

theorem CanonicalShape.strip (htidy : Tidy t) (hbreaks : ¬ ['\n', '\n', '\n'] <:+: t) : CanonicalShape (pythonStrip t) := by
  obtain ⟨a, b, ht, -, -⟩ := strip_split t
  have hinfix : pythonStrip t <:+: t := ⟨a, b, ht.symm⟩
  have htidy' : Tidy (pythonStrip t) := htidy.infix hinfix
  refine ⟨strip_strip t, fun line hline => ?_, fun h => hbreaks (h.trans hinfix)⟩
  obtain ⟨a, b, heq, hn, ha, hb⟩ := hline
  rw [heq] at htidy'
  refine strip_eq_self (fun c hc => ?_) fun c hc => ?_
  · have hcn : c ≠ '\n' := fun h => hn (h ▸ List.mem_of_mem_head? hc)
    cases hlast : a.getLast? with
    | none =>
      obtain rfl := List.getLast?_eq_none_iff.1 hlast
      refine strip_head (t := t) ?_
      rw [heq, List.nil_append, List.head?_append]
      simp [Option.mem_def.1 hc]
    | some d =>
      -- the character before the line is a newline
      obtain rfl := ha d hlast
      have hbeside := (List.isChain_append.1 htidy'.left_of_append).2.2 '\n' hlast c hc
      exact Bool.eq_false_iff.2 fun hspace => hcn (hbeside.1 rfl hspace)
  · have hcn : c ≠ '\n' := fun h => hn (h ▸ List.mem_of_mem_getLast? hc)
    cases hhead : b.head? with
    | none =>
      obtain rfl := List.head?_eq_none_iff.1 hhead
      refine strip_getLast (t := t) ?_
      rw [heq, List.append_nil, List.getLast?_append]
      simp [Option.mem_def.1 hc]
    | some d =>
      obtain rfl := hb d hhead
      have hc' : c ∈ (a ++ line).getLast? := by
        rw [List.getLast?_append]
        simp [Option.mem_def.1 hc]
      have hbeside := (List.isChain_append.1 htidy').2.2 c hc' '\n' hhead
      exact Bool.eq_false_iff.2 fun hspace => hcn (hbeside.2 rfl hspace)

/-- **Every raw text has a canonical text, of the canonical shape, with a source
for each of its characters.** -/
theorem canonicalText_some (U : Ucd) (raw : Text) : ∃ text sources,
    canonicalTextWithSources U raw = .some (text, sources) ∧ sources.length = text.length ∧ CanonicalShape text := by
  obtain ⟨t₁, s₁, h₁, hlen₁⟩ := normalizeNfc_some U raw
  obtain ⟨t₂, s₂, h₂, hlen₂, hbreaks, -⟩ := collapse_some _ rfl hlen₁
  obtain ⟨t₃, s₃, h₃, hlen₃, hthin, htidy, -⟩ := trimmedLines_some _ rfl hlen₂
  refine ⟨slice (trimSpan t₃) t₃, slice (trimSpan t₃) s₃, ?_, length_slice hlen₃, ?_⟩
  · simp only [canonicalTextWithSources, trimLines, h₁, h₂, h₃, Option.bind_eq_bind, Option.bind_some]
  · rw [slice_trimSpan]
    exact .strip htidy (hthin.fewBreaks hbreaks).no_three

/-! ## The walk -/

mutual

/-- The ids and names asked for, of the elements the walk enters, in document
order. -/
def anchorsOf (elementIds : List Text) : DomNode → List Text
  | .element tagName attributes childNodes =>
    if isHidden attributes then []
    else if (skipElements.map String.toList).contains (lower tagName) then []
    else [getAttribute attributes "id", getAttribute attributes "name"].filter (fun value => elementIds.contains value) ++
      if lower tagName = "br".toList then [] else anchorsOfAll elementIds childNodes
  | _ => []

def anchorsOfAll (elementIds : List Text) : List DomNode → List Text
  | [] => []
  | node :: rest => anchorsOf elementIds node ++ anchorsOfAll elementIds rest

end

/-- Each value where it occurs first, behind those seen before. -/
def firstOccurrences (seen values : List Text) : List Text :=
  values.foldl (fun seen value => if seen.contains value then seen else seen ++ [value]) seen

theorem firstOccurrences_append {seen a b : List Text} :
    firstOccurrences seen (a ++ b) = firstOccurrences (firstOccurrences seen a) b := List.foldl_append

namespace Walk

variable {elementIds : List Text} {w w' : Walk}

/-- Each element starts no sooner than those before it, and within the text. -/
structure Ordered (w : Walk) : Prop where
  starts : (w.rawOffsets.map Prod.snd).Pairwise (· ≤ ·)
  within : ∀ p ∈ w.rawOffsets, p.2 ≤ w.raw.length

/-- From `w` to `w'` the walk met `values`. -/
structure Meets (elementIds values : List Text) (w w' : Walk) : Prop where
  ordered : w.Ordered → w'.Ordered
  keys : w'.rawOffsets.map Prod.fst = firstOccurrences (w.rawOffsets.map Prod.fst) values

theorem Meets.refl (w : Walk) : Meets elementIds [] w w := ⟨id, rfl⟩

theorem Meets.trans {a b : List Text} {w'' : Walk} (h : Meets elementIds a w w') (h' : Meets elementIds b w' w'') :
    Meets elementIds (a ++ b) w w'' := ⟨h'.ordered ∘ h.ordered, by rw [firstOccurrences_append, h'.keys, h.keys]⟩

theorem meets_append (text : Text) : Meets elementIds [] w (w.append text) where
  ordered h := ⟨h.starts, fun p hp => by
    have hle := h.within p hp
    simp only [append, List.length_append]
    omega⟩
  keys := rfl

theorem meets_breakLine : Meets elementIds [] w w.breakLine := by
  simp only [breakLine]
  split
  · exact meets_append _
  · exact .refl w

theorem meets_breakLine_if (isBlock : Bool) : Meets elementIds [] w (if isBlock then w.breakLine else w) := by
  split
  · exact meets_breakLine
  · exact .refl w

theorem meets_record (value : Text) :
    Meets elementIds ([value].filter fun value => elementIds.contains value) w (w.record elementIds value) := by
  simp only [record]
  split
  next hasked =>
    rw [List.filter_cons_of_pos hasked, List.filter_nil]
    have hseen : (w.rawOffsets.any fun p => p.1 == value) = (w.rawOffsets.map Prod.fst).contains value := by
      rw [Bool.eq_iff_iff]
      simp [List.any_eq_true]
    split
    next h =>
      refine ⟨id, ?_⟩
      simp only [firstOccurrences, List.foldl_cons, List.foldl_nil]
      rw [if_pos (hseen ▸ h)]
    next h =>
      refine ⟨fun hw => ⟨?_, fun p hp => ?_⟩, ?_⟩
      · rw [List.map_append, List.pairwise_append]
        refine ⟨hw.starts, List.pairwise_singleton _ _, fun n hn m hm => ?_⟩
        obtain ⟨p, hp, rfl⟩ := List.mem_map.1 hn
        obtain rfl : m = w.raw.length := by simpa using hm
        exact hw.within p hp
      · rcases List.mem_append.1 hp with hp | hp
        · exact hw.within p hp
        · obtain rfl := List.mem_singleton.1 hp
          exact Nat.le_refl _
      · simp only [firstOccurrences, List.foldl_cons, List.foldl_nil]
        rw [if_neg (hseen ▸ h), List.map_append]
        rfl
  next hasked =>
    rw [List.filter_cons_of_neg hasked, List.filter_nil]
    exact .refl w

end Walk

mutual

theorem meets_walkNode (elementIds : List Text) : ∀ (node : DomNode) (w : Walk),
    Walk.Meets elementIds (anchorsOf elementIds node) w (walkNode elementIds node w)
  | .text data, w => by
    rw [walkNode, anchorsOf]
    · exact Walk.meets_append _
    · simp
  | .other, w => by
    rw [walkNode, anchorsOf]
    · exact .refl w
    · simp
  | .element tagName attributes childNodes, w => by
    rw [walkNode, anchorsOf]
    dsimp only
    split
    · exact .refl w
    split
    · exact .refl w
    have hopen : Walk.Meets elementIds [] w
        (if (blockElements.map String.toList).contains (lower tagName) then w.breakLine else w) := Walk.meets_breakLine_if _
    have hrecord := (hopen.trans (Walk.meets_record (getAttribute attributes "id"))).trans
      (Walk.meets_record (getAttribute attributes "name"))
    rw [List.nil_append, ← List.filter_append, List.singleton_append] at hrecord
    split
    · exact hrecord.trans (Walk.meets_append _)
    · have hchildren := (hrecord.trans (meets_walkNodes elementIds childNodes _)).trans
        (Walk.meets_breakLine_if ((blockElements.map String.toList).contains (lower tagName)))
      rwa [List.append_nil] at hchildren

theorem meets_walkNodes (elementIds : List Text) : ∀ (nodes : List DomNode) (w : Walk),
    Walk.Meets elementIds (anchorsOfAll elementIds nodes) w (walkNodes elementIds nodes w)
  | [], w => by
    rw [walkNodes, anchorsOfAll]
    exact .refl w
  | node :: rest, w => by
    rw [walkNodes, anchorsOfAll]
    exact (meets_walkNode elementIds node w).trans (meets_walkNodes elementIds rest _)

end

/-- **A document's canonical text has the canonical shape and a source for each
character. An element's offset counts the characters whose source lies before
its start, so it is within the text, and the elements' offsets, listed in
document order, do not decrease.** -/
theorem canonicalText_offsets (U : Ucd) (root : DomNode) (elementIds : List Text) :
    ∃ text sources offsets,
      canonicalTextWithSources U (walkNode elementIds root ⟨[], []⟩).raw = .some (text, sources) ∧
      canonicalTextWithElementOffsets U root elementIds = .some (text, offsets) ∧
      CanonicalShape text ∧ sources.length = text.length ∧
      offsets = (walkNode elementIds root ⟨[], []⟩).rawOffsets.map
        (fun p => (p.1, sources.countP fun source => decide (source < p.2))) ∧
      offsets.map Prod.fst = firstOccurrences [] (anchorsOf elementIds root) ∧
      (∀ p ∈ offsets, p.2 ≤ text.length) ∧ (offsets.map Prod.snd).Pairwise (· ≤ ·) := by
  obtain ⟨text, sources, htext, hlen, hshape⟩ := canonicalText_some U (walkNode elementIds root ⟨[], []⟩).raw
  have hmeets := meets_walkNode elementIds root ⟨[], []⟩
  have hordered := hmeets.ordered ⟨by simp, by simp⟩
  have hsorted : (sources.insertionSort (· ≤ ·)).Pairwise (· ≤ ·) := List.pairwise_insertionSort _ _
  have hoffset (n : Nat) : bisectLeft (sources.insertionSort (· ≤ ·)) n 0 (sources.insertionSort (· ≤ ·)).length =
      sources.countP fun source => decide (source < n) :=
    (bisectLeft_eq_countP hsorted).trans ((List.perm_insertionSort _ sources).countP_eq _)
  refine ⟨text, sources, _, htext, ?_, hshape, hlen, rfl, ?_, fun p hp => ?_, ?_⟩
  · simp only [canonicalTextWithElementOffsets, htext, Option.bind_eq_bind, Option.bind_some, hoffset]
  · rw [List.map_map]
    exact hmeets.keys
  · obtain ⟨q, -, rfl⟩ := List.mem_map.1 hp
    rw [← hlen]
    exact List.countP_le_length
  · rw [List.map_map]
    refine List.pairwise_map.2 ((List.pairwise_map.1 hordered.starts).imp fun {p q} hpq => ?_)
    refine List.countP_mono_left fun source _ hsource => ?_
    simp only [decide_eq_true_eq] at hsource ⊢
    omega

end Nexus.Canonicalize
