/-
The note of a Link is the one last put through it, as long as no note is put
through two Links.

`Associated` is the invariant: every Link-note edge of the viewer goes from the
note last put through a Link to one of that Link's endpoints, and both are
there. It makes carrying a Link's motif the same as being last put through it
(`carriesMotif_iff_lastPut`), since a note put through one Link only has no
third target. `put_link_note` does not ask for that: a note that already has a
Link takes a second, and then every pair of their endpoints.
-/
import Nexus.Notes.LinkCommands
import Nexus.Notes.LeavesNothing

namespace Nexus.Notes
open Relational Graph Surfaces Mutations Transition ExceptFacts

variable {B R : Type} {viewerId : Uuid}

structure IsLink (viewerId : Uuid) (s : Edges) (link : ResourceEdge) : Prop where
  mem : link ∈ s.rows
  user : link.userId = viewerId
  neutral : link.isNeutralLinkShape = true

/-- The Link notes of the viewer are the notes last put. -/
structure Associated (viewerId : Uuid) (s : Edges) (notes : Notes B) (lastPut : Uuid → Option Uuid) : Prop where
  canonical : ∀ l, IsLink viewerId s l → l.source.le l.target = true
  owned : ∀ e ∈ s.rows, e.origin = .linkNote → ∃ block ∈ notes.rows, e.source = noteRef block.id ∧ block.userId = e.userId
  sound : ∀ e ∈ s.rows, e.userId = viewerId → e.origin = .linkNote →
    ∃ l n, IsLink viewerId s l ∧ lastPut l.id = .some n ∧ e.source = noteRef n ∧ (e.target = l.source ∨ e.target = l.target)
  complete : ∀ l n, IsLink viewerId s l → lastPut l.id = .some n →
    carriesMotif s viewerId l.source l.target (noteRef n) = true
  apart : ∀ l l' n, IsLink viewerId s l → IsLink viewerId s l' → lastPut l.id = .some n → lastPut l'.id = .some n → l = l'

section Association

variable {s t : Edges} {notes notes' : Notes B} {lastPut : Uuid → Option Uuid} {l l' : ResourceEdge} {n : Uuid}

theorem IsLink.origin (h : IsLink viewerId s l) : l.origin = .user := by
  have hneutral := h.neutral
  simp only [EdgeCreate.isNeutralLinkShape, Bool.and_eq_true, beq_iff_eq] at hneutral
  exact hneutral.1.1

theorem IsLink.source_ne (h : IsLink viewerId s l) : l.source ≠ l.target := by
  have hchecks : l.checks = true := s.checked l h.mem
  intro heq
  simp [EdgeCreate.checks, heq] at hchecks

theorem noteRef_injective {m n : Uuid} (h : noteRef m = noteRef n) : m = n := congrArg ResourceRef.id h

theorem Associated.unique (h : Associated viewerId s notes lastPut) (hl : IsLink viewerId s l) (hl' : IsLink viewerId s l')
    (hj : l'.joins l.source l.target = true) : l = l' := by
  have hpair : l'.source = l.source ∧ l'.target = l.target := by
    rcases joins_iff.1 hj with hsame | ⟨hs, ht⟩
    · exact hsame
    · have hcanonical := h.canonical l' hl'
      rw [hs, ht] at hcanonical
      exact absurd (ResourceRef.le_antisymm (h.canonical l hl) hcanonical) hl.source_ne
  refine s.unique l hl.mem l' hl'.mem ?_
  simp [edgeSchema, ResourceEdge.clash, ResourceEdge.samePair, ResourceEdge.sameSource, hl.neutral, hl'.neutral, hl.user,
    hl'.user, hpair.1, hpair.2]

/-- **A note carries a Link's motif exactly if it was last put through that Link.** -/
theorem Associated.carriesMotif_iff_lastPut (h : Associated viewerId s notes lastPut) (hl : IsLink viewerId s l) :
    carriesMotif s viewerId l.source l.target (noteRef n) = true ↔ lastPut l.id = .some n := by
  refine ⟨fun hcarries => ?_, h.complete l n hl⟩
  rw [carriesMotif_iff] at hcarries
  have hend : ∀ target ∈ [l.source, l.target], ∃ k, IsLink viewerId s k ∧ lastPut k.id = .some n ∧
      (target = k.source ∨ target = k.target) := by
    intro target htarget
    obtain ⟨e, he, hu, ho, hs, rfl⟩ := hcarries target htarget
    obtain ⟨k, m, hk, hput, hsource, hend⟩ := h.sound e he hu ho
    obtain rfl : m = n := noteRef_injective (hsource.symm.trans hs)
    exact ⟨k, hk, hput, hend⟩
  obtain ⟨k, hk, hput, hsource⟩ := hend l.source (by simp)
  obtain ⟨k', hk', hput', htarget⟩ := hend l.target (by simp)
  -- the note was put through one Link, whose endpoints these are
  obtain rfl : k = k' := h.apart k k' n hk hk' hput hput'
  have hj : k.joins l.source l.target = true := by
    rw [joins_iff]
    rcases hsource with hs | hs <;> rcases htarget with ht | ht
    · exact absurd (hs.trans ht.symm) hl.source_ne
    · exact .inl ⟨hs.symm, ht.symm⟩
    · exact .inr ⟨ht.symm, hs.symm⟩
    · exact absurd (hs.trans ht.symm) hl.source_ne
  obtain rfl : l = k := h.unique hl hk hj
  exact hput

theorem mem_attachments {note : ResourceRef} {a b : ResourceRef} (hnote : note.scheme = .noteBlock)
    (h : carriesMotif s viewerId a b note = true) :
    ∃ e ∈ s.rows.filter fun e => e.userId == viewerId && e.origin == .linkNote && e.source.scheme == .noteBlock &&
      (e.target == a || e.target == b), e.source = note := by
  obtain ⟨e, he, hu, ho, hs, ht⟩ := carriesMotif_iff.1 h a (by simp)
  refine ⟨e, List.mem_filter.2 ⟨he, ?_⟩, hs⟩
  simp [hu, ho, hs, ht, hnote]

/-- What `_link_note_block_id` finds is the note last put, whatever order it
comes across the attachments in. -/
theorem Associated.linkNoteBlockId_eq (h : Associated viewerId s notes lastPut) (hl : IsLink viewerId s l)
    (env : LinkNoteEnv) : linkNoteBlockId env s viewerId l.source l.target = lastPut l.id := by
  cases hfound : linkNoteBlockId env s viewerId l.source l.target with
  | some n =>
    have hcarries := List.find?_some hfound
    exact ((h.carriesMotif_iff_lastPut hl).1 hcarries).symm
  | none =>
    cases hput : lastPut l.id with
    | none => rfl
    | some n =>
      have hcarries := h.complete l n hl hput
      obtain ⟨e, he, hs⟩ := mem_attachments rfl hcarries
      have hnone := List.find?_eq_none.1 hfound n
      refine absurd hcarries (hnone (List.mem_map.2 ⟨e, (env.rowOrder_perm _).mem_iff.2 he, ?_⟩))
      rw [hs]
      rfl

/-! ## The edits -/

/-- Every note is there still, and is its owner's. -/
def NotesKept (notes notes' : Notes B) : Prop :=
  ∀ block ∈ notes.rows, ∃ block' ∈ notes'.rows, block'.id = block.id ∧ block'.userId = block.userId

theorem Associated.of_same (h : Associated viewerId s notes lastPut)
    (hedges : ∀ e, e.origin = .linkNote ∨ e.origin = .user → (e ∈ t.rows ↔ e ∈ s.rows)) (hnotes : NotesKept notes notes') :
    Associated viewerId t notes' lastPut := by
  have hlink : ∀ k, IsLink viewerId t k ↔ IsLink viewerId s k := by
    intro k
    constructor
    · exact fun hk => ⟨(hedges k (.inr hk.origin)).1 hk.mem, hk.user, hk.neutral⟩
    · exact fun hk => ⟨(hedges k (.inr hk.origin)).2 hk.mem, hk.user, hk.neutral⟩
  constructor
  case canonical => exact fun l hl => h.canonical l ((hlink l).1 hl)
  case owned =>
    intro e he ho
    obtain ⟨block, hblock, hs, hu⟩ := h.owned e ((hedges e (.inl ho)).1 he) ho
    obtain ⟨block', hblock', hid, huser⟩ := hnotes block hblock
    exact ⟨block', hblock', by rw [hid]; exact hs, huser.trans hu⟩
  case sound =>
    intro e he hu ho
    obtain ⟨l, n, hl, hrest⟩ := h.sound e ((hedges e (.inl ho)).1 he) hu ho
    exact ⟨l, n, (hlink l).2 hl, hrest⟩
  case complete =>
    intro l n hl hput
    exact carriesMotif_mono (fun e he ho => (hedges e (.inl ho)).2 he) (h.complete l n ((hlink l).1 hl) hput)
  case apart => exact fun l l' n hl hl' => h.apart l l' n ((hlink l).1 hl) ((hlink l').1 hl')

theorem Associated.of_lastPut {lastPut' : Uuid → Option Uuid} (h : Associated viewerId s notes lastPut)
    (hput : ∀ l, IsLink viewerId s l → lastPut' l.id = lastPut l.id) : Associated viewerId s notes lastPut' where
  canonical := h.canonical
  owned := h.owned
  sound e he hu ho := by
    obtain ⟨l, n, hl, hn, hrest⟩ := h.sound e he hu ho
    exact ⟨l, n, hl, (hput l hl).trans hn, hrest⟩
  complete l n hl hn := h.complete l n hl ((hput l hl).symm.trans hn)
  apart l l' n hl hl' hn hn' := h.apart l l' n hl hl' ((hput l hl).symm.trans hn) ((hput l' hl').symm.trans hn')

theorem Associated.insert_link {row : ResourceEdge} (h : Associated viewerId s notes lastPut)
    (hins : s.insert? row = .some t) (hneutral : row.isNeutralLinkShape = true)
    (hle : row.source.le row.target = true) (hnone : lastPut row.id = .none) : Associated viewerId t notes lastPut := by
  have hmem := fun e => Store.mem_insert? (b := e) hins
  have horigin : row.origin = .user := by
    simp only [EdgeCreate.isNeutralLinkShape, Bool.and_eq_true, beq_iff_eq] at hneutral
    exact hneutral.1.1
  have hnote : ∀ e ∈ t.rows, e.origin = .linkNote → e ∈ s.rows := by
    intro e he ho
    rcases (hmem e).1 he with rfl | he
    · rw [horigin] at ho; cases ho
    · exact he
  have hold : ∀ k m, IsLink viewerId t k → lastPut k.id = .some m → IsLink viewerId s k := by
    intro k m hk hput
    rcases (hmem k).1 hk.mem with rfl | hks
    · rw [hnone] at hput; cases hput
    · exact ⟨hks, hk.user, hk.neutral⟩
  constructor
  case canonical =>
    intro k hk
    rcases (hmem k).1 hk.mem with rfl | hks
    · exact hle
    · exact h.canonical k ⟨hks, hk.user, hk.neutral⟩
  case owned => exact fun e he ho => h.owned e (hnote e he ho) ho
  case sound =>
    intro e he hu ho
    obtain ⟨k, m, hk, hrest⟩ := h.sound e (hnote e he ho) hu ho
    exact ⟨k, m, ⟨(hmem k).2 (.inr hk.mem), hk.user, hk.neutral⟩, hrest⟩
  case complete =>
    intro k m hk hput
    exact carriesMotif_mono (fun e he _ => (hmem e).2 (.inr he)) (h.complete k m (hold k m hk hput) hput)
  case apart =>
    exact fun k k' m hk hk' hput hput' => h.apart k k' m (hold k m hk hput) (hold k' m hk' hput') hput hput'

theorem Associated.unlink (h : Associated viewerId s notes lastPut) (hl : IsLink viewerId s l) :
    Associated viewerId (unlink viewerId l s) notes (Function.update lastPut l.id .none) := by
  have hold : ∀ k, IsLink viewerId (Graph.unlink viewerId l s) k → IsLink viewerId s k ∧ k.id ≠ l.id := by
    intro k hk
    obtain ⟨hks, -, hid⟩ := mem_unlink.1 hk.mem
    exact ⟨⟨hks, hk.user, hk.neutral⟩, hid⟩
  have hput : ∀ (k : ResourceEdge) m, k.id ≠ l.id →
      (Function.update lastPut l.id .none k.id = .some m ↔ lastPut k.id = .some m) := by
    intro k m hid
    rw [Function.update_of_ne hid]
  constructor
  case canonical => exact fun k hk => h.canonical k (hold k hk).1
  case owned => exact fun e he ho => h.owned e (mem_unlink.1 he).1 ho
  case sound =>
    intro e he hu ho
    obtain ⟨hes, hkept, -⟩ := mem_unlink.1 he
    obtain ⟨k, m, hk, hm, hs, hend⟩ := h.sound e hes hu ho
    -- an attachment of the Link's own note has gone
    have hid : k.id ≠ l.id := by
      intro hid
      obtain rfl : k = l := eq_of_id hk.mem hl.mem hid
      rw [ho, hs, h.complete k m hk hm] at hkept
      cases hkept
    have huser : k.origin = .user := hk.origin
    refine ⟨k, m, ⟨mem_unlink.2 ⟨hk.mem, ?_, hid⟩, hk.user, hk.neutral⟩, (hput k m hid).2 hm, hs, hend⟩
    rw [huser]
    rfl
  case complete =>
    intro k m hk hm
    obtain ⟨hks, hid⟩ := hold k hk
    have hm := (hput k m hid).1 hm
    have hcarries := h.complete k m hks hm
    rw [carriesMotif_iff] at hcarries ⊢
    intro target htarget
    obtain ⟨e, he, hu, ho, hs, ht⟩ := hcarries target htarget
    have hother : carriesMotif s viewerId l.source l.target (noteRef m) = false := by
      rw [← Bool.not_eq_true, h.carriesMotif_iff_lastPut hl]
      exact fun hlm => hid (congrArg ResourceEdge.id (h.apart k l m hks hl hm hlm))
    have hne : e.id ≠ l.id := by
      intro heq
      obtain rfl : e = l := eq_of_id he hl.mem heq
      have huser := hl.origin
      rw [ho] at huser
      cases huser
    exact ⟨e, mem_unlink.2 ⟨he, by rw [hs, hother, Bool.and_false], hne⟩, hu, ho, hs, ht⟩
  case apart =>
    intro k k' m hk hk' hm hm'
    obtain ⟨hks, hid⟩ := hold k hk
    obtain ⟨hks', hid'⟩ := hold k' hk'
    exact h.apart k k' m hks hks' ((hput k m hid).1 hm) ((hput k' m hid').1 hm')

section Purge

variable {dead : List ResourceRef} {k e : ResourceEdge} {m : Uuid}

theorem IsLink.doomed_iff (hk : IsLink viewerId s k) : doomed dead s k = true ↔ k.source ∈ dead ∨ k.target ∈ dead := by
  have hordinal : k.ordinal = .none := by
    have hneutral := hk.neutral
    simp only [EdgeCreate.isNeutralLinkShape, EdgeCreate.bare, Bool.and_eq_true, Option.isNone_iff_eq_none] at hneutral
    exact hneutral.2.1.1.1
  rw [doomed_eq_true, inDeadMotif_eq_true, bareTouches_eq_true, citedFrom_eq_true, hk.origin, hordinal]
  simp

theorem Associated.link_kept (h : Associated viewerId s notes lastPut) (hk : IsLink viewerId s k)
    (hm : lastPut k.id = .some m) (ho : e.origin = .linkNote) (hs : e.source = noteRef m)
    (hkept : doomed dead s e = false) : doomed dead s k = false := by
  rw [← Bool.not_eq_true] at hkept ⊢
  intro hgone
  have hcarries := carriesMotif_iff.1 (h.complete k m hk hm)
  have hend : ∀ target ∈ [k.source, k.target], target ∉ dead := by
    intro target htarget hdead
    obtain ⟨f, hf, -, hfo, hfs, rfl⟩ := hcarries target htarget
    exact hkept (doomed_eq_true.2 (.inl (inDeadMotif_eq_true.2 ⟨ho, f, hf, hfo, hdead, hfs.trans hs.symm⟩)))
  rcases hk.doomed_iff.1 hgone with hdead | hdead
  · exact hend k.source (by simp) hdead
  · exact hend k.target (by simp) hdead

theorem Associated.attachment_kept (h : Associated viewerId s notes lastPut) (hk : IsLink viewerId s k)
    (hm : lastPut k.id = .some m) (he : e ∈ s.rows) (hu : e.userId = viewerId) (ho : e.origin = .linkNote)
    (hs : e.source = noteRef m) (hlive : noteRef m ∉ dead) (hkept : doomed dead s k = false) :
    doomed dead s e = false := by
  have hends : k.source ∉ dead ∧ k.target ∉ dead := by
    rw [← not_or, ← hk.doomed_iff, hkept]
    exact Bool.false_ne_true
  -- whoever attached the note owns it
  have hown : ∀ f ∈ s.rows, f.origin = .linkNote → f.source = noteRef m → f.target ∉ dead := by
    intro f hf hfo hfs
    obtain ⟨block, hblock, hbs, hbu⟩ := h.owned e he ho
    obtain ⟨block', hblock', hbs', hbu'⟩ := h.owned f hf hfo
    have hid : block.id = block'.id := noteRef_injective (hbs.symm.trans (hs.trans (hfs.symm.trans hbs')))
    obtain rfl : block = block' := Table.eq_of_key hblock hblock' hid
    have hfu : f.userId = viewerId := hbu'.symm.trans (hbu.trans hu)
    obtain ⟨k', m', hk', hm', hfs', hend⟩ := h.sound f hf hfu hfo
    obtain rfl : m' = m := noteRef_injective (hfs'.symm.trans hfs)
    obtain rfl : k' = k := h.apart k' k m' hk' hk hm' hm
    rcases hend with hend | hend
    · rw [hend]; exact hends.1
    · rw [hend]; exact hends.2
  rw [← Bool.not_eq_true, doomed_eq_true]
  rintro (hmotif | hbare | hcited)
  · obtain ⟨-, f, hf, hfo, hdead, hfs⟩ := inDeadMotif_eq_true.1 hmotif
    exact hown f hf hfo (hfs.trans hs) hdead
  · obtain ⟨-, hsource | htarget⟩ := bareTouches_eq_true.1 hbare
    · exact hlive (hs ▸ hsource)
    · exact hown e he ho hs htarget
  · have hordinal := (citedFrom_eq_true.1 hcited).1
    rw [ordinal_of_linkNote he ho] at hordinal
    cases hordinal

theorem Associated.purge (h : Associated viewerId s notes lastPut) (hl : IsLink viewerId s l) (hput : lastPut l.id = .some n)
    (hdead : ∀ m, noteRef m ∈ dead ↔ m = n) (hnotes : ∀ block ∈ notes.rows, block.id ≠ n → block ∈ notes'.rows) :
    Associated viewerId (purgeEdges dead s) notes' (Function.update lastPut l.id .none) := by
  have hold : ∀ k, IsLink viewerId (purgeEdges dead s) k ↔ IsLink viewerId s k ∧ doomed dead s k = false := by
    intro k
    constructor
    · intro hk
      obtain ⟨hks, hkept⟩ := mem_purgeEdges.1 hk.mem
      exact ⟨⟨hks, hk.user, hk.neutral⟩, hkept⟩
    · exact fun ⟨hk, hkept⟩ => ⟨mem_purgeEdges.2 ⟨hk.mem, hkept⟩, hk.user, hk.neutral⟩
  have hlast : ∀ (k : ResourceEdge) m, Function.update lastPut l.id .none k.id = .some m →
      k.id ≠ l.id ∧ lastPut k.id = .some m := by
    intro k m hkm
    by_cases hid : k.id = l.id
    · rw [hid, Function.update_self] at hkm
      cases hkm
    · rw [Function.update_of_ne hid] at hkm
      exact ⟨hid, hkm⟩
  constructor
  case canonical => exact fun k hk => h.canonical k ((hold k).1 hk).1
  case owned =>
    intro e he ho
    obtain ⟨hes, hkept⟩ := mem_purgeEdges.1 he
    obtain ⟨block, hblock, hs, hu⟩ := h.owned e hes ho
    refine ⟨block, hnotes block hblock fun hid => ?_, hs, hu⟩
    have hgone : doomed dead s e = true := doomed_eq_true.2 (.inr (.inl (bareTouches_eq_true.2
      ⟨ordinal_of_linkNote hes ho, .inl (hs ▸ (hdead block.id).2 hid)⟩)))
    rw [hgone] at hkept
    cases hkept
  case sound =>
    intro e he hu ho
    obtain ⟨hes, hkept⟩ := mem_purgeEdges.1 he
    obtain ⟨k, m, hk, hm, hs, hend⟩ := h.sound e hes hu ho
    have hid : k.id ≠ l.id := by
      intro hid
      obtain rfl : k = l := eq_of_id hk.mem hl.mem hid
      obtain rfl : n = m := Option.some.inj (hput.symm.trans hm)
      have hgone : doomed dead s e = true := doomed_eq_true.2 (.inr (.inl (bareTouches_eq_true.2
        ⟨ordinal_of_linkNote hes ho, .inl (hs ▸ (hdead n).2 rfl)⟩)))
      rw [hgone] at hkept
      cases hkept
    refine ⟨k, m, (hold k).2 ⟨hk, h.link_kept hk hm ho hs hkept⟩, ?_, hs, hend⟩
    rw [Function.update_of_ne hid]
    exact hm
  case complete =>
    intro k m hk hkm
    obtain ⟨hid, hm⟩ := hlast k m hkm
    obtain ⟨hks, hkept⟩ := (hold k).1 hk
    have hlive : noteRef m ∉ dead := by
      rw [hdead]
      rintro rfl
      exact hid (congrArg ResourceEdge.id (h.apart k l m hks hl hm hput))
    have hcarries := h.complete k m hks hm
    rw [carriesMotif_iff] at hcarries ⊢
    intro target htarget
    obtain ⟨e, he, hu, ho, hs, ht⟩ := hcarries target htarget
    exact ⟨e, mem_purgeEdges.2 ⟨he, h.attachment_kept hks hm he hu ho hs hlive hkept⟩, hu, ho, hs, ht⟩
  case apart =>
    intro k k' m hk hk' hkm hkm'
    exact h.apart k k' m ((hold k).1 hk).1 ((hold k').1 hk').1 (hlast k m hkm).2 (hlast k' m hkm').2

end Purge

theorem Associated.attach (h : Associated viewerId s notes lastPut) (hl : IsLink viewerId s l)
    (hnone : lastPut l.id = .none)
    (hfree : ∀ e ∈ s.rows, e.userId = viewerId → e.origin = .linkNote → e.source ≠ noteRef n)
    (hnote : ∃ block ∈ notes.rows, block.id = n ∧ block.userId = viewerId)
    (hmem : ∀ e, e ∈ t.rows → e ∈ s.rows ∨ (e.userId = viewerId ∧ e.origin = .linkNote ∧ e.source = noteRef n ∧
      (e.target = l.source ∨ e.target = l.target)))
    (hsub : ∀ e ∈ s.rows, e ∈ t.rows)
    (hboth : carriesMotif t viewerId l.source l.target (noteRef n) = true) :
    Associated viewerId t notes (Function.update lastPut l.id (.some n)) := by
  have hold : ∀ k, IsLink viewerId t k → IsLink viewerId s k := by
    intro k hk
    rcases hmem k hk.mem with hks | ⟨-, ho, -⟩
    · exact ⟨hks, hk.user, hk.neutral⟩
    · rw [hk.origin] at ho; cases ho
  -- no Link had the note before
  have hnew : ∀ k, IsLink viewerId s k → lastPut k.id ≠ .some n := by
    intro k hk hkn
    obtain ⟨e, he, hu, ho, hs, -⟩ := carriesMotif_iff.1 (h.complete k n hk hkn) k.source (by simp)
    exact hfree e he hu ho hs
  constructor
  case canonical => exact fun k hk => h.canonical k (hold k hk)
  case owned =>
    intro e he ho
    rcases hmem e he with hes | ⟨hu, -, hs, -⟩
    · exact h.owned e hes ho
    · obtain ⟨block, hblock, hid, huser⟩ := hnote
      exact ⟨block, hblock, by rw [hid]; exact hs, huser.trans hu.symm⟩
  case sound =>
    intro e he hu ho
    rcases hmem e he with hes | ⟨-, -, hs, hend⟩
    · obtain ⟨k, m, hk, hm, hrest⟩ := h.sound e hes hu ho
      refine ⟨k, m, ⟨hsub k hk.mem, hk.user, hk.neutral⟩, ?_, hrest⟩
      rw [Function.update_of_ne]
      · exact hm
      · intro hid
        rw [hid, hnone] at hm
        cases hm
    · exact ⟨l, n, ⟨hsub l hl.mem, hl.user, hl.neutral⟩, Function.update_self .., hs, hend⟩
  case complete =>
    intro k m hk hkm
    by_cases hid : k.id = l.id
    · obtain rfl : k = l := eq_of_id (hold k hk).mem hl.mem hid
      rw [Function.update_self] at hkm
      obtain rfl : n = m := Option.some.inj hkm
      exact hboth
    · rw [Function.update_of_ne hid] at hkm
      exact carriesMotif_mono (fun e he _ => hsub e he) (h.complete k m (hold k hk) hkm)
  case apart =>
    intro k k' m hk hk' hkm hkm'
    by_cases hid : k.id = l.id <;> by_cases hid' : k'.id = l.id
    · exact eq_of_id hk.mem hk'.mem (hid.trans hid'.symm)
    · rw [hid, Function.update_self] at hkm
      rw [Function.update_of_ne hid'] at hkm'
      obtain rfl : n = m := Option.some.inj hkm
      exact absurd hkm' (hnew k' (hold k' hk'))
    · rw [hid', Function.update_self] at hkm'
      rw [Function.update_of_ne hid] at hkm
      obtain rfl : n = m := Option.some.inj hkm'
      exact absurd hkm (hnew k (hold k hk))
    · rw [Function.update_of_ne hid] at hkm
      rw [Function.update_of_ne hid'] at hkm'
      exact h.apart k k' m (hold k hk) (hold k' hk') hkm hkm'

end Association

/-! ## What each command does -/

section Commands

variable {sha : Sha256} {env : LinkNoteEnv} {s t : LinkState B R} {lastPut : Uuid → Option Uuid} {link : ResourceEdge}
  {linkId noteId : Uuid}

theorem loadNeutralLink_ok {s : Edges} (h : loadNeutralLink s viewerId linkId = .ok link) :
    IsLink viewerId s link ∧ link.id = linkId := by
  unfold loadNeutralLink at h
  cases hget : getOwnedEdge s viewerId linkId with
  | none => rw [hget] at h; cases h
  | some edge =>
    rw [hget] at h
    simp only at h
    split at h
    next hneutral =>
      cases h
      obtain ⟨hmem, hid, hu⟩ := getOwnedEdge_eq_some.1 hget
      exact ⟨⟨hmem, hu, hneutral⟩, hid⟩
    next => cases h

theorem getOwnedEdge_eq_none {s : Edges} (h : getOwnedEdge s viewerId linkId = .none) {l : ResourceEdge}
    (hl : IsLink viewerId s l) : l.id ≠ linkId := by
  rintro rfl
  rw [getOwnedEdge_eq_some.2 ⟨hl.mem, rfl, hl.user⟩] at h
  cases h

theorem deleteLink_cases {s t : Edges} (h : deleteLink viewerId linkId s = .ok t) :
    (getOwnedEdge s viewerId linkId = .none ∧ t = s) ∨
      ∃ link, IsLink viewerId s link ∧ link.id = linkId ∧ t = unlink viewerId link s := by
  unfold deleteLink at h
  cases hget : getOwnedEdge s viewerId linkId with
  | none =>
    rw [hget] at h
    cases h
    exact .inl ⟨rfl, rfl⟩
  | some link =>
    rw [hget] at h
    obtain ⟨-, h⟩ := check_eq_ok.1 h
    obtain ⟨hneutral, h⟩ := check_eq_ok.1 h
    obtain ⟨-, rfl⟩ := deleteEdge_eq_ok.1 h
    obtain ⟨hmem, rfl, hu⟩ := getOwnedEdge_eq_some.1 hget
    exact .inr ⟨link, ⟨hmem, hu, by simpa using hneutral⟩, rfl, rfl⟩

theorem Associated.createLinkRow {request : CreateLinkRequest} {out : CreateLinkOut}
    (h : Associated viewerId s.rows.edges s.rows.notes lastPut)
    (hrun : createLinkRow sha env viewerId request s = .ok (t, out)) :
    Associated viewerId t.rows.edges t.rows.notes fun id =>
      if (getOwnedEdge s.rows.edges viewerId id).isSome then lastPut id else .none := by
  have hold : Associated viewerId s.rows.edges s.rows.notes fun id =>
      if (getOwnedEdge s.rows.edges viewerId id).isSome then lastPut id else .none := by
    refine h.of_lastPut fun l hl => ?_
    rw [getOwnedEdge_eq_some.2 ⟨hl.mem, rfl, hl.user⟩, Option.isSome_some, if_pos rfl]
  obtain ⟨⟨u, answer⟩, hcreate, heq⟩ := map_eq_ok.1 hrun
  cases heq
  rcases createLink_ok hcreate with ⟨-, rfl⟩ | ⟨-, happly⟩
  · exact hold
  · obtain ⟨source, _, target, write, -, -, -, hwrite, -⟩ := applyCreateLink_ok happly
    obtain ⟨hu, hneutral, -, ⟨-, -, hsame⟩ | ⟨-, -, hs, ht, hins⟩⟩ := createLinkEdge_ok hwrite
    · show Associated viewerId u.edges s.rows.notes _
      rw [hsame]
      exact hold
    · refine hold.insert_link hins hneutral ?_ ?_
      · rw [hs, ht]
        exact canonicalPair_le source target
      · -- the id was not taken
        have hfresh := (Store.insert?_eq_some.1 hins).1.2
        have hfind : s.rows.edges.toTable.find? write.edge.id = .none := hfresh
        simp only [getOwnedEdge, hfind]
        rfl

theorem Associated.deleteLinkRow (h : Associated viewerId s.rows.edges s.rows.notes lastPut)
    (hrun : deleteLinkRow viewerId linkId s = .ok t) :
    Associated viewerId t.rows.edges t.rows.notes (Function.update lastPut linkId .none) := by
  obtain ⟨edges, hdelete, rfl⟩ := map_eq_ok.1 hrun
  rcases deleteLink_cases hdelete with ⟨hnone, rfl⟩ | ⟨link, hl, rfl, rfl⟩
  · exact h.of_lastPut fun l hl => Function.update_of_ne (getOwnedEdge_eq_none hnone hl) _ _
  · exact h.unlink hl

theorem noteRef_mem_dying (env : LinkNoteEnv) (noteId m : Uuid) (rows : NoteRows B R) :
    noteRef m ∈ dyingWith (env.dossiers noteId) (noteRef noteId) rows ++ rows.index.refs (noteRef noteId) ↔ m = noteId := by
  constructor
  · intro h
    simp only [dyingWith, LinkNoteEnv.dossiers, ContentIndex.refs, List.mem_append, List.mem_map, List.mem_cons,
      PassageAnchor.ref, noteRef, ResourceRef.mk.injEq, reduceCtorEq, false_and, and_false, exists_false, false_or,
      or_false] at h
    exact h.2
  · rintro rfl
    simp [dyingWith]

theorem Associated.deleteLinkNote (h : Associated viewerId s.rows.edges s.rows.notes lastPut)
    (hrun : deleteLinkNote env viewerId linkId s = .ok t) :
    Associated viewerId t.rows.edges t.rows.notes (Function.update lastPut linkId .none) := by
  obtain ⟨link, hload, hfound⟩ := bind_eq_ok.1 hrun
  obtain ⟨hl, rfl⟩ := loadNeutralLink_ok hload
  rw [h.linkNoteBlockId_eq hl] at hfound
  cases hput : lastPut link.id with
  | none =>
    rw [hput] at hfound
    cases hfound
    refine h.of_lastPut fun l _ => ?_
    by_cases hid : l.id = link.id
    · rw [hid, Function.update_self, hput]
    · rw [Function.update_of_ne hid]
  | some noteId =>
    rw [hput] at hfound
    cases hfound
    -- the note is the viewer's, so it is removed
    obtain ⟨e, he, hu, ho, hs, -⟩ := carriesMotif_iff.1 (h.complete link noteId hl hput) link.source (by simp)
    obtain ⟨block, hblock, hbs, hbu⟩ := h.owned e he ho
    obtain rfl : block.id = noteId := noteRef_injective (hbs.symm.trans hs)
    obtain ⟨hswept, hnotes, -, -⟩ := swept_removeNoteBlock (env.dossiers block.id) hblock (hbu.trans hu)
    show Associated viewerId (removeNoteBlock _ _ _ _).edges (removeNoteBlock _ _ _ _).notes _
    rw [hswept.graph.edges, hnotes]
    refine h.purge hl hput (fun m => noteRef_mem_dying env block.id m s.rows) fun b hb hne => ?_
    exact Table.mem_deleteWhere.2 ⟨hb, by simpa using hne⟩

section Put

variable [NoteBody B] [DecidableEq B]

omit [DecidableEq B] in
theorem syncNoteBodyEdges_others {w : GraphView} {newId : Nat → Uuid} {block : NoteBlock B} {s t : Edges}
    (h : syncNoteBodyEdges w newId viewerId block s = .ok t) (e : ResourceEdge) (ho : e.origin ≠ .noteBody) :
    e ∈ t.rows ↔ e ∈ s.rows := by
  have hfilter := filter_replaceEdgesForOrigin (p := fun row => row.origin != .noteBody)
    (fun row horigin => by simp [horigin]) h
  have hmem : ∀ u : Edges, e ∈ u.rows.filter (fun row => row.origin != .noteBody) ↔ e ∈ u.rows := by
    intro u
    rw [List.mem_filter]
    exact and_iff_left (by simpa using ho)
  rw [← hmem, hfilter, hmem]

theorem upsertNoteBody_frame {w : GraphView} {newId : Nat → Uuid} {body : B} {rows rows' : SurfaceRows B}
    {block : NoteBlock B} (h : upsertNoteBody w newId viewerId noteId body rows = .ok (rows', block)) :
    block.id = noteId ∧ (∀ e : ResourceEdge, e.origin ≠ .noteBody → (e ∈ rows'.edges.rows ↔ e ∈ rows.edges.rows)) ∧
      NotesKept rows.notes rows'.notes ∧ ∃ b ∈ rows'.notes.rows, b.id = noteId ∧ b.userId = viewerId := by
  unfold upsertNoteBody at h
  cases hfind : rows.notes.find? noteId with
  | none =>
    rw [hfind] at h
    simp only at h
    split at h
    · cases h
    next notes hins =>
      obtain ⟨_, -, h⟩ := bind_eq_ok.1 h
      obtain ⟨_, -, h⟩ := bind_eq_ok.1 h
      obtain ⟨edges, hsync, h⟩ := bind_eq_ok.1 h
      cases h
      have hrows := (Table.insert?_eq_some.1 hins).2
      refine ⟨rfl, fun e ho => syncNoteBodyEdges_others hsync e ho, fun b hb => ⟨b, ?_, rfl, rfl⟩,
        ⟨noteId, viewerId, body⟩, ?_, rfl, rfl⟩
      · rw [hrows]; exact List.mem_cons_of_mem _ hb
      · rw [hrows]; exact List.mem_cons_self
  | some found =>
    rw [hfind] at h
    obtain ⟨howner, h⟩ := check_eq_ok.1 h
    obtain ⟨hmem, hid⟩ := Table.find?_eq_some.1 hfind
    have howner : found.userId = viewerId := not_not.1 howner
    split at h
    · cases h
      exact ⟨hid, fun e _ => Iff.rfl, fun b hb => ⟨b, hb, rfl, rfl⟩, _, hmem, hid, howner⟩
    · obtain ⟨_, -, h⟩ := bind_eq_ok.1 h
      obtain ⟨edges, hsync, h⟩ := bind_eq_ok.1 h
      cases h
      have hkept : NotesKept rows.notes (rows.notes.updateWhere (fun row => row.id == noteId)
          fun row => { row with bodyPmJson := body }) := by
        intro b hb
        refine ⟨if (b.id == noteId) = true then { b with bodyPmJson := body } else b,
          Table.mem_updateWhere.2 ⟨b, hb, rfl⟩, ?_⟩
        by_cases hb' : (b.id == noteId) = true
        · rw [if_pos hb']; exact ⟨rfl, rfl⟩
        · rw [if_neg hb']; exact ⟨rfl, rfl⟩
      obtain ⟨b, hb, hbid, hbu⟩ := hkept found hmem
      exact ⟨hid, fun e ho => syncNoteBodyEdges_others hsync e ho, hkept, b, hb, hbid.trans hid, hbu.trans howner⟩

end Put

theorem createEdge_linkNote {w : GraphView} {s t : Edges} {target : ResourceRef} {row : ResourceEdge}
    (h : createEdge w viewerId { source := noteRef noteId, target, kind := .context, origin := .linkNote } s =
      .ok (t, row)) :
    (∀ e, e ∈ t.rows ↔ e = row ∨ e ∈ s.rows) ∧
      (row.userId = viewerId ∧ row.origin = .linkNote ∧ row.source = noteRef noteId ∧ row.target = target) ∧
      ∀ e ∈ s.rows, e.userId = viewerId → e.origin = .linkNote → e.source = noteRef noteId → e.target ≠ target := by
  rcases createEdge_ok h with ⟨hneutral, -⟩ | ⟨rfl, hins⟩
  · cases hneutral
  · refine ⟨fun e => Store.mem_insert? hins, ⟨rfl, rfl, rfl, rfl⟩, ?_⟩
    intro e he hu ho hs ht
    have hclash : edgeSchema.clash ⟨{ source := noteRef noteId, target, kind := .context, origin := .linkNote },
        w.newEdgeId, viewerId⟩ e = true := by
      have hchecks : e.checks = true := s.checked e he
      have hbare : e.ordinal.isNone = true ∧ unordered e.toEdgeCreate = true := by
        rw [ordinal_of_linkNote he ho]
        refine ⟨rfl, ?_⟩
        cases hsource : e.sourceOrderKey <;> cases htarget : e.targetOrderKey <;>
          simp_all [EdgeCreate.checks, unordered]
      simp [edgeSchema, ResourceEdge.clash, ResourceEdge.samePair, ResourceEdge.sameSource, unordered, hu, ho, hs, ht, hbare.1]
      exact .inr (by simpa [unordered] using hbare.2)
    have heq := t.unique _ ((Store.mem_insert? hins).2 (.inl rfl)) e ((Store.mem_insert? hins).2 (.inr he)) hclash
    have hfresh := Table.find?_eq_none.1 (Store.insert?_eq_some.1 hins).1.2 e he
    exact hfresh (congrArg ResourceEdge.id heq.symm)

theorem attachNote_ok {s t : Edges} (h : attachNote env viewerId link noteId s = .ok t) :
    (∀ e, e ∈ t.rows → e ∈ s.rows ∨ (e.userId = viewerId ∧ e.origin = .linkNote ∧ e.source = noteRef noteId ∧
      (e.target = link.source ∨ e.target = link.target))) ∧ (∀ e ∈ s.rows, e ∈ t.rows) ∧
      carriesMotif t viewerId link.source link.target (noteRef noteId) = true ∧
      ∀ e ∈ s.rows, e.userId = viewerId → e.origin = .linkNote → e.source = noteRef noteId →
        e.target ≠ link.source ∧ e.target ≠ link.target := by
  obtain ⟨⟨u, first⟩, hfirst, h⟩ := bind_eq_ok.1 h
  obtain ⟨⟨v, second⟩, hsecond, h⟩ := bind_eq_ok.1 h
  cases h
  obtain ⟨hmem, ⟨hu, ho, hs, ht⟩, hfree⟩ := createEdge_linkNote hfirst
  obtain ⟨hmem', ⟨hu', ho', hs', ht'⟩, hfree'⟩ := createEdge_linkNote hsecond
  refine ⟨?_, fun e he => (hmem' e).2 (.inr ((hmem e).2 (.inr he))), ?_, ?_⟩
  · intro e he
    rcases (hmem' e).1 he with rfl | he
    · exact .inr ⟨hu', ho', hs', .inr ht'⟩
    · rcases (hmem e).1 he with rfl | he
      · exact .inr ⟨hu, ho, hs, .inl ht⟩
      · exact .inl he
  · rw [carriesMotif_iff]
    intro target htarget
    simp only [List.mem_cons, List.not_mem_nil, or_false] at htarget
    rcases htarget with rfl | rfl
    · exact ⟨first, (hmem' first).2 (.inr ((hmem first).2 (.inl rfl))), hu, ho, hs, ht⟩
    · exact ⟨second, (hmem' second).2 (.inl rfl), hu', ho', hs', ht'⟩
  · exact fun e he heu heo hes => ⟨hfree e he heu heo hes, hfree' e ((hmem e).2 (.inr he)) heu heo hes⟩

/-- The note has no Link-note edge of the viewer yet, or has one at an endpoint
of the Link. -/
def OneLink (viewerId : Uuid) (s : Edges) (link : ResourceEdge) (noteId : Uuid) : Prop :=
  ∀ e ∈ s.rows, e.userId = viewerId → e.origin = .linkNote → e.source = noteRef noteId →
    ∃ f ∈ s.rows, f.userId = viewerId ∧ f.origin = .linkNote ∧ f.source = noteRef noteId ∧
      (f.target = link.source ∨ f.target = link.target)

section Put

variable [NoteBody B] [DecidableEq B]

theorem Associated.applyPutLinkNote {request : PutLinkNoteRequest B} {rows rows' : NoteRows B R} {memo out : LinkNoteOut}
    (h : Associated viewerId rows.edges rows.notes lastPut) (hl : IsLink viewerId rows.edges link)
    (hone : lastPut link.id = .none → OneLink viewerId rows.edges link request.noteBlockId)
    (hrun : applyPutLinkNote env viewerId link request rows = .ok (rows', memo, out)) :
    Associated viewerId rows'.edges rows'.notes (Function.update lastPut link.id (.some request.noteBlockId)) := by
  obtain ⟨hmatch, hrun⟩ := check_eq_ok.1 hrun
  obtain ⟨⟨surface, block⟩, hupsert, hrun⟩ := bind_eq_ok.1 hrun
  obtain ⟨edges, hattach, hrun⟩ := bind_eq_ok.1 hrun
  obtain ⟨_, -, hrun⟩ := bind_eq_ok.1 hrun
  cases hrun
  obtain ⟨hid, hedges, hkept, hnote⟩ := upsertNoteBody_frame hupsert
  rw [h.linkNoteBlockId_eq hl] at hattach hmatch
  have hother : ∀ e : ResourceEdge, e.origin = .linkNote ∨ e.origin = .user → (e ∈ surface.edges.rows ↔ e ∈ rows.edges.rows) :=
    fun e ho => hedges e fun hbody => by rcases ho with ho | ho <;> rw [hbody] at ho <;> cases ho
  have hsurface : Associated viewerId surface.edges surface.notes lastPut := h.of_same hother hkept
  show Associated viewerId edges surface.notes _
  cases hput : lastPut link.id with
  | some existing =>
    rw [hput] at hattach hmatch
    cases hattach
    -- the Link's note is the one put again
    obtain rfl : existing = request.noteBlockId := by simpa using hmatch
    refine hsurface.of_lastPut fun l _ => ?_
    by_cases hsame : l.id = link.id
    · rw [hsame, Function.update_self, hput]
    · rw [Function.update_of_ne hsame]
  | none =>
    rw [hput] at hattach
    rw [hid] at hattach
    obtain ⟨hmem, hsub, hboth, hfree⟩ := attachNote_ok hattach
    have hl' : IsLink viewerId surface.edges link := ⟨(hother link (.inr hl.origin)).2 hl.mem, hl.user, hl.neutral⟩
    refine hsurface.attach hl' hput ?_ hnote hmem hsub hboth
    intro e he hu ho hs
    obtain ⟨f, hf, hfu, hfo, hfs, hend⟩ := hone hput e ((hother e (.inl ho)).1 he) hu ho hs
    have hne := hfree f ((hother f (.inl hfo)).2 hf) hfu hfo hfs
    exact hend.elim hne.1 hne.2

end Put

end Commands

/-! ## Runs -/

section Runs

variable [NoteBody B] [DecidableEq B] {sha : Sha256}

/-- A note put anew through a Link that has none belongs to no other Link. -/
def LinkCall.OneLink (viewerId : Uuid) (s : Tracked B R) (call : LinkCall B) : Prop :=
  match call.command with
  | .putLinkNote linkId request =>
    s.linkNotes.find? (linkNoteKey viewerId linkId request.clientMutationId) = .none → s.lastPut linkId = .none →
      ∀ link ∈ s.rows.edges.rows, link.id = linkId → Notes.OneLink viewerId s.rows.edges link request.noteBlockId
  | _ => True

def Tracked.Ok (viewerId : Uuid) (s : Tracked B R) : Prop :=
  Associated viewerId s.rows.edges s.rows.notes s.lastPut

theorem Tracked.Ok.after {s : Tracked B R} {call : LinkCall B} (h : s.Ok viewerId) (hone : call.OneLink viewerId s) :
    (call.after sha viewerId s).Ok viewerId := by
  unfold LinkCall.after
  split
  next t hrun =>
    unfold LinkCall.run at hrun
    unfold Tracked.Ok LinkCall.track
    unfold LinkCall.OneLink at hone
    cases hcommand : call.command with
    | createLink request =>
      rw [hcommand] at hrun
      obtain ⟨⟨u, out⟩, hcreate, rfl⟩ := map_eq_ok.1 hrun
      exact Associated.createLinkRow h hcreate
    | deleteLink linkId =>
      rw [hcommand] at hrun
      exact Associated.deleteLinkRow h hrun
    | deleteLinkNote linkId =>
      rw [hcommand] at hrun
      exact Associated.deleteLinkNote h hrun
    | putLinkNote linkId request =>
      rw [hcommand] at hrun hone
      obtain ⟨⟨u, out⟩, hput, rfl⟩ := map_eq_ok.1 hrun
      obtain ⟨link, hload, hput⟩ := bind_eq_ok.1 hput
      obtain ⟨hl, hid⟩ := loadNeutralLink_ok hload
      obtain ⟨⟨⟨rows, ledger⟩, answer⟩, hmemo, heq⟩ := map_eq_ok.1 hput
      cases heq
      rcases memoized_eq_ok.1 hmemo with ⟨response, hfind, -, hsame⟩ | ⟨hfind, response, happly, -⟩
      · cases hsame
        have hfound : s.linkNotes.find? (linkNoteKey viewerId linkId request.clientMutationId) = _ := hfind
        simp only [hfound]
        exact h
      · have hfound : s.linkNotes.find? (linkNoteKey viewerId linkId request.clientMutationId) = .none := hfind
        simp only [hfound]
        have hnew := hone hfound
        subst hid
        exact Associated.applyPutLinkNote h hl (fun hnone => hnew hnone link hl.mem rfl) happly
  next => exact h

omit [NoteBody B] [DecidableEq B] in
theorem Unnoted.ok {s : Tracked B R} (h : Unnoted viewerId s) : s.Ok viewerId where
  canonical l hl := h.canonical l hl.mem hl.user hl.neutral
  owned := h.owned
  sound e he hu ho := absurd ho (h.none e he hu)
  complete l n _ hput := by rw [h.lastPut] at hput; cases hput
  apart l l' n _ _ hput _ := by rw [h.lastPut] at hput; cases hput

/-- The Link whose note a command is about. -/
def LinkCommand.linkId : LinkCommand B → Option Uuid
  | .createLink _ => .none
  | .putLinkNote linkId _ | .deleteLinkNote linkId | .deleteLink linkId => .some linkId

end Runs

/-! ## A note put through two Links -/

/-- Pages and media are linked; the note is an empty paragraph. -/
instance emptyParagraph : NoteBody Unit := ⟨fun _ => []⟩

end Nexus.Notes
