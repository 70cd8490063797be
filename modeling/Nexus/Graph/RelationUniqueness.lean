/-
One Link and one stance to an unordered pair, over every run of the four
commands.

`RelationsOk` is what the runs keep: Links stored in canonical order, one
stance to a pair, and no Link note without its Link. That Links are unique
needs only the canonical order, since the unique index tells directed pairs
apart. The last clause is why a Link just created has nothing to detach, so
deleting it restores the table.
-/
import Nexus.Graph.UserRelations

namespace Nexus.Graph
open Relational Mutations Transition ExceptFacts

/-- A user edge that takes a stance. -/
def EdgeCreate.isStance (e : EdgeCreate) : Bool := e.origin == .user && e.kind != .context

theorem isStanceShape_of_mem {s : Edges} {e : ResourceEdge} (he : e ∈ s.rows) : e.isStanceShape = e.isStance := by
  unfold EdgeCreate.isStanceShape EdgeCreate.isStance
  by_cases hu : e.origin = .user
  · by_cases hk : e.kind = .context
    · simp [hk]
    · simp [hu, EdgeCreate.bare_of_stance (s.checked e he) hu hk]
  · simp [hu]

/-! ## Unordered pairs -/

theorem joins_iff {e : ResourceEdge} {a b : ResourceRef} :
    e.joins a b = true ↔ (e.source = a ∧ e.target = b) ∨ (e.source = b ∧ e.target = a) := by
  simp only [ResourceEdge.joins, Bool.or_eq_true, Bool.and_eq_true, beq_iff_eq]

theorem joins_comm {e : ResourceEdge} {a b : ResourceRef} : e.joins a b = e.joins b a := by
  simp only [ResourceEdge.joins, Bool.or_comm]

theorem joins_self (e : ResourceEdge) : e.joins e.source e.target = true := joins_iff.2 (.inl ⟨rfl, rfl⟩)

theorem joins_of_joins {e f : ResourceEdge} {a b : ResourceRef} (he : e.joins a b = true) (hf : f.joins a b = true) :
    f.joins e.source e.target = true := by
  rcases joins_iff.1 he with ⟨rfl, rfl⟩ | ⟨rfl, rfl⟩
  · exact hf
  · rwa [joins_comm]

theorem canonicalPair_le (x y : ResourceRef) : (canonicalPair x y).1.le (canonicalPair x y).2 = true := by
  unfold canonicalPair
  split
  next h => exact h
  next h => exact (x.le_total y).resolve_left h

theorem joins_canonicalPair {e : ResourceEdge} {x y : ResourceRef} :
    e.joins (canonicalPair x y).1 (canonicalPair x y).2 = e.joins x y := by
  unfold canonicalPair
  split
  next => rfl
  next => exact joins_comm

/-! ## The invariant -/

/-- The viewer has a Link on the pair. -/
def Linked (s : Edges) (viewerId : Uuid) (a b : ResourceRef) : Prop :=
  ∃ e ∈ s.rows, e.userId = viewerId ∧ e.isNeutralLinkShape = true ∧ e.joins a b = true

structure RelationsOk (s : Edges) : Prop where
  canonical : ∀ e ∈ s.rows, e.isNeutralLinkShape = true → e.source.le e.target = true
  stance_unique : ∀ e ∈ s.rows, ∀ f ∈ s.rows, e.isStance = true → f.isStance = true → e.userId = f.userId →
    f.joins e.source e.target = true → e = f
  motif_linked : ∀ viewerId a b note, a ≠ b → carriesMotif s viewerId a b note = true → Linked s viewerId a b

theorem carriesMotif_iff {s : Edges} {viewerId : Uuid} {a b note : ResourceRef} :
    carriesMotif s viewerId a b note = true ↔ ∀ target ∈ [a, b], ∃ e ∈ s.rows,
      e.userId = viewerId ∧ e.origin = .linkNote ∧ e.source = note ∧ e.target = target := by
  simp only [carriesMotif, Bool.and_eq_true, List.any_eq_true, beq_iff_eq, List.forall_mem_cons, List.not_mem_nil,
    false_implies, implies_true, and_true, and_assoc]

theorem carriesMotif_mono {s t : Edges} (h : ∀ e ∈ t.rows, e.origin = .linkNote → e ∈ s.rows) {viewerId : Uuid}
    {a b note : ResourceRef} (hm : carriesMotif t viewerId a b note = true) :
    carriesMotif s viewerId a b note = true := by
  rw [carriesMotif_iff] at hm ⊢
  intro target ht
  obtain ⟨e, he, hu, ho, hrest⟩ := hm target ht
  exact ⟨e, h e he ho, hu, ho, hrest⟩

theorem RelationsOk.of_noRelations {s : Edges} (h : NoRelations s) : RelationsOk s where
  canonical e he hlink := by rw [(h e he).1] at hlink; cases hlink
  stance_unique e he _ _ hstance := by
    rw [← isStanceShape_of_mem he, (h e he).2.1] at hstance
    cases hstance
  motif_linked viewerId a b note _ hm := by
    obtain ⟨e, he, -, ho, -⟩ := carriesMotif_iff.1 hm a (by simp)
    exact absurd ho (h e he).2.2

/-- **One Link to a pair**: in canonical order the two rows are one directed
pair, which the unique index holds once. -/
theorem RelationsOk.link_unique {s : Edges} (h : RelationsOk s) {e f : ResourceEdge} (he : e ∈ s.rows) (hf : f ∈ s.rows)
    (hle : e.isNeutralLinkShape = true) (hlf : f.isNeutralLinkShape = true) (hu : e.userId = f.userId)
    (hj : f.joins e.source e.target = true) : e = f := by
  have hpair : f.source = e.source ∧ f.target = e.target := by
    rcases joins_iff.1 hj with hsame | ⟨hs, ht⟩
    · exact hsame
    · have hce := h.canonical e he hle
      have hcf := h.canonical f hf hlf
      rw [hs, ht] at hcf
      have heq : e.source = e.target := ResourceRef.le_antisymm hce hcf
      exact ⟨hs.trans heq.symm, ht.trans heq⟩
  refine s.unique e he f hf ?_
  simp [edgeSchema, ResourceEdge.clash, ResourceEdge.samePair, ResourceEdge.sameSource, hle, hlf, hu, hpair.1, hpair.2]

theorem isLink_of_stance {e : ResourceEdge} (h : e.isStance = true) : e.isNeutralLinkShape = false := by
  simp only [EdgeCreate.isStance, Bool.and_eq_true, beq_iff_eq, bne_iff_ne] at h
  simp [EdgeCreate.isNeutralLinkShape, h.2]

/-! ## The edits -/

section Edits

variable {s t : Edges} {viewerId : Uuid} {a b : ResourceRef} {row : ResourceEdge}

theorem Linked.mono (h : ∀ e ∈ s.rows, e.isNeutralLinkShape = true → e ∈ t.rows) (hl : Linked s viewerId a b) :
    Linked t viewerId a b := by
  obtain ⟨e, he, hu, hlink, hj⟩ := hl
  exact ⟨e, h e he hlink, hu, hlink, hj⟩

theorem RelationsOk.deleteWhere (h : RelationsOk s) {p : ResourceEdge → Bool}
    (hp : ∀ e ∈ s.rows, p e = true → e.isNeutralLinkShape = false) : RelationsOk (s.deleteWhere p) where
  canonical e he := h.canonical e (Store.mem_deleteWhere.1 he).1
  stance_unique e he f hf :=
    h.stance_unique e (Store.mem_deleteWhere.1 he).1 f (Store.mem_deleteWhere.1 hf).1
  motif_linked viewerId a b note hab hm := by
    have hs := carriesMotif_mono (fun e he _ => (Store.mem_deleteWhere.1 he).1) hm
    refine (h.motif_linked viewerId a b note hab hs).mono fun e he hlink => Store.mem_deleteWhere.2 ⟨he, ?_⟩
    by_contra hdel
    rw [hp e he (by simpa using hdel)] at hlink
    cases hlink

theorem RelationsOk.delete_stance (h : RelationsOk s) {stance : ResourceEdge} (hmem : stance ∈ s.rows)
    (hs : stance.isStance = true) : RelationsOk (s.deleteWhere fun e => e.id == stance.id) := by
  refine h.deleteWhere fun e he hdel => ?_
  rw [eq_of_id he hmem (beq_iff_eq.1 hdel)]
  exact isLink_of_stance hs

/-- A row of another shape than a Link note or a stance may come, if it is in
canonical order when it is a Link. -/
theorem RelationsOk.insert_link (h : RelationsOk s) (hins : s.insert? row = .some t)
    (hlink : row.isNeutralLinkShape = true) (hle : row.source.le row.target = true) : RelationsOk t := by
  have hmem := fun e => Store.mem_insert? (b := e) hins
  have horigin : row.origin = .user ∧ row.kind = .context := by
    simp only [EdgeCreate.isNeutralLinkShape, Bool.and_eq_true, beq_iff_eq] at hlink
    exact hlink.1
  have hstance : row.isStance = false := by simp [EdgeCreate.isStance, horigin.2]
  constructor
  case canonical =>
    intro e he hlink'
    rcases (hmem e).1 he with rfl | he
    · exact hle
    · exact h.canonical e he hlink'
  case stance_unique =>
    intro e he f hf hse hsf
    rcases (hmem e).1 he with rfl | he
    · rw [hstance] at hse; cases hse
    · rcases (hmem f).1 hf with rfl | hf
      · rw [hstance] at hsf; cases hsf
      · exact h.stance_unique e he f hf hse hsf
  case motif_linked =>
    intro viewerId a b note hab hm
    have hs := carriesMotif_mono (s := s) (fun e he ho => by
      rcases (hmem e).1 he with rfl | he
      · rw [horigin.1] at ho; cases ho
      · exact he) hm
    exact (h.motif_linked viewerId a b note hab hs).mono fun e he _ => (hmem e).2 (.inr he)

theorem RelationsOk.insert_stance (h : RelationsOk s) (hins : s.insert? row = .some t) (hstance : row.isStance = true)
    (hfree : ∀ e ∈ s.rows, e.isStance = true → e.userId = row.userId → e.joins row.source row.target = false) :
    RelationsOk t := by
  have hmem := fun e => Store.mem_insert? (b := e) hins
  have horigin : row.origin = .user ∧ row.kind ≠ .context := by
    simpa only [EdgeCreate.isStance, Bool.and_eq_true, beq_iff_eq, bne_iff_ne] using hstance
  have hnot : row.isNeutralLinkShape = false := by simp [EdgeCreate.isNeutralLinkShape, horigin.2]
  constructor
  case canonical =>
    intro e he hlink
    rcases (hmem e).1 he with rfl | he
    · rw [hnot] at hlink; cases hlink
    · exact h.canonical e he hlink
  case stance_unique =>
    intro e he f hf hse hsf hu hj
    rcases (hmem e).1 he with rfl | hes
    · rcases (hmem f).1 hf with rfl | hfs
      · rfl
      · rw [hfree f hfs hsf hu.symm] at hj; cases hj
    · rcases (hmem f).1 hf with rfl | hfs
      · have hj' := joins_of_joins hj (joins_self e)
        rw [hfree e hes hse hu] at hj'; cases hj'
      · exact h.stance_unique e hes f hfs hse hsf hu hj
  case motif_linked =>
    intro viewerId a b note hab hm
    have hs := carriesMotif_mono (s := s) (fun e he ho => by
      rcases (hmem e).1 he with rfl | he
      · rw [horigin.1] at ho; cases ho
      · exact he) hm
    exact (h.motif_linked viewerId a b note hab hs).mono fun e he _ => (hmem e).2 (.inr he)

/-- What `delete_link` leaves. -/
def unlink (viewerId : Uuid) (link : ResourceEdge) (s : Edges) : Edges :=
  (detachLinkNoteMotif viewerId link.source link.target s).deleteWhere fun e => e.id == link.id

theorem mem_unlink {link e : ResourceEdge} :
    e ∈ (unlink viewerId link s).rows ↔ e ∈ s.rows ∧
      (e.origin == .linkNote && carriesMotif s viewerId link.source link.target e.source) = false ∧ e.id ≠ link.id := by
  rw [unlink, detachLinkNoteMotif, Store.mem_deleteWhere, Store.mem_deleteWhere, and_assoc, beq_eq_false_iff_ne]

theorem RelationsOk.unlink (h : RelationsOk s) {link : ResourceEdge} (hlink : link ∈ s.rows)
    (hu : link.userId = viewerId) : RelationsOk (unlink viewerId link s) := by
  constructor
  case canonical => exact fun e he => h.canonical e (mem_unlink.1 he).1
  case stance_unique => exact fun e he f hf => h.stance_unique e (mem_unlink.1 he).1 f (mem_unlink.1 hf).1
  case motif_linked =>
    intro v a b note hab hm
    have hs := carriesMotif_mono (s := s) (fun e he _ => (mem_unlink.1 he).1) hm
    obtain ⟨e, he, hev, hel, hej⟩ := h.motif_linked v a b note hab hs
    have hnote : (e.origin == .linkNote) = false := by
      simp only [EdgeCreate.isNeutralLinkShape, Bool.and_eq_true, beq_iff_eq] at hel
      rw [hel.1.1]
      rfl
    by_cases hid : e.id = link.id
    · -- the pair is the Link's own, and then its notes' edges are gone
      obtain rfl : e = link := eq_of_id he hlink hid
      obtain ⟨f, hf, -, hfo, hfs, -⟩ := carriesMotif_iff.1 hm a (by simp)
      have hkept := (mem_unlink.1 hf).2.1
      have hcarries : carriesMotif s viewerId e.source e.target note = true := by
        rw [← hu, hev]
        rcases joins_iff.1 hej with ⟨rfl, rfl⟩ | ⟨rfl, rfl⟩
        · exact hs
        · rw [carriesMotif, Bool.and_comm] at hs
          exact hs
      rw [hfo, hfs, hcarries] at hkept
      cases hkept
    · exact ⟨e, mem_unlink.2 ⟨he, by rw [hnote, Bool.false_and], hid⟩, hev, hel, hej⟩

end Edits

/-! ## What each command does -/

section Commands

variable {sha : Sha256} {env : LinkEnv} {viewerId : Uuid} {s t : Edges}

theorem existingLinkPair_eq_none {a b : ResourceRef} :
    existingLinkPair s viewerId a b = .ok .none ↔ ¬ Linked s viewerId a b := by
  rw [existingLinkPair, scalarOneOrNone_eq_none, List.filter_eq_nil_iff]
  simp only [Linked, Bool.and_eq_true, beq_iff_eq, and_assoc, not_exists, not_and]

theorem mem_of_scalar {p : ResourceEdge → Bool} {row : ResourceEdge}
    (h : scalarOneOrNone (s.rows.filter p) = .ok (.some row)) : row ∈ s.rows ∧ p row = true := by
  rw [scalarOneOrNone_eq_some] at h
  exact List.mem_filter.1 (by rw [h]; exact List.mem_singleton_self row)

theorem createLinkEdge_ok {w : GraphView} {a b : ResourceRef} {write : EdgeWrite}
    (h : createLinkEdge w viewerId a b s = .ok (t, write)) :
    write.edge.userId = viewerId ∧ write.edge.isNeutralLinkShape = true ∧ write.edge.joins a b = true ∧
      ((write.created = false ∧ write.edge ∈ s.rows ∧ t = s) ∨
        (write.created = true ∧ ¬ Linked s viewerId a b ∧ write.edge.source = a ∧ write.edge.target = b ∧
          s.insert? write.edge = .some t)) := by
  obtain ⟨found, hfound, h⟩ := bind_eq_ok.1 h
  cases found with
  | some existing =>
    cases h
    obtain ⟨hmem, hrow⟩ := mem_of_scalar hfound
    simp only [Bool.and_eq_true, beq_iff_eq] at hrow
    exact ⟨hrow.1.1, hrow.1.2, hrow.2, .inl ⟨rfl, hmem, rfl⟩⟩
  | none =>
    obtain ⟨⟨u, edge⟩, hcreate, h⟩ := bind_eq_ok.1 h
    cases h
    rcases createEdge_ok hcreate with ⟨-, hexists, -⟩ | ⟨rfl, hins⟩
    · rw [show existingLinkPair s viewerId a b = .ok .none from hfound] at hexists
      cases hexists
    · exact ⟨rfl, rfl, joins_self _, .inr ⟨rfl, existingLinkPair_eq_none.1 hfound, rfl, rfl, hins⟩⟩

theorem applyCreateLink_ok {request : CreateLinkRequest} {memo out : CreateLinkOut}
    (h : applyCreateLink env viewerId request s = .ok (t, memo, out)) :
    ∃ source made target write, resolveLinkSource env request.source = .ok (source, made) ∧
      resolveLinkTarget env request.target = .ok target ∧ source ≠ target ∧
      createLinkEdge env.toGraphView viewerId (canonicalPair source target).1 (canonicalPair source target).2 s =
        .ok (t, write) ∧ out.created = write.created ∧ out.connection = write.edge ∧ memo = out := by
  obtain ⟨⟨source, made⟩, hsource, h⟩ := bind_eq_ok.1 h
  obtain ⟨target, htarget, h⟩ := bind_eq_ok.1 h
  obtain ⟨hne, h⟩ := check_eq_ok.1 h
  obtain ⟨⟨u, write⟩, hwrite, h⟩ := bind_eq_ok.1 h
  obtain ⟨connection, hconnection, h⟩ := bind_eq_ok.1 h
  unfold connectionForEdge at hconnection
  split at hconnection
  · cases hconnection
    cases h
    exact ⟨source, made, target, write, hsource, htarget, hne, hwrite, rfl, rfl, rfl⟩
  · cases hconnection

theorem createLink_ok {s t : GraphState} {request : CreateLinkRequest} {out : CreateLinkOut}
    (h : createLink sha env viewerId request s = .ok (t, out)) :
    (s.mutations.find? (linkKey viewerId request) =
        .some ⟨linkKey viewerId request, sha.hexdigest request.requestBytes, out⟩ ∧ t = s) ∨
      (s.mutations.find? (linkKey viewerId request) = .none ∧
        applyCreateLink env viewerId request s.edges = .ok (t.edges, out, out)) := by
  obtain ⟨⟨⟨edges, ledger⟩, answer⟩, hrun, heq⟩ := map_eq_ok.1 h
  cases heq
  rcases memoized_eq_ok.1 hrun with ⟨response, hfind, hserve, hsame⟩ | ⟨hfind, response, happly, -⟩
  · cases hserve
    cases hsame
    exact .inl ⟨hfind, rfl⟩
  · obtain ⟨_, _, _, _, -, -, -, -, -, -, rfl⟩ := applyCreateLink_ok happly
    exact .inr ⟨hfind, happly⟩

theorem deleteLink_ok {linkId : Uuid} (h : deleteLink viewerId linkId s = .ok t) :
    t = s ∨ ∃ link ∈ s.rows, link.userId = viewerId ∧ link.isNeutralLinkShape = true ∧ t = unlink viewerId link s := by
  unfold deleteLink at h
  cases hget : getOwnedEdge s viewerId linkId with
  | none =>
    rw [hget] at h
    cases h
    exact .inl rfl
  | some link =>
    rw [hget] at h
    obtain ⟨-, h⟩ := check_eq_ok.1 h
    obtain ⟨hlink, h⟩ := check_eq_ok.1 h
    obtain ⟨-, rfl⟩ := deleteEdge_eq_ok.1 h
    obtain ⟨hmem, rfl, hu⟩ := getOwnedEdge_eq_some.1 hget
    exact .inr ⟨link, hmem, hu, by simpa using hlink, rfl⟩

theorem deleteStance_ok {stanceId : Uuid} (h : deleteStance viewerId stanceId s = .ok t) :
    t = s ∨ ∃ stance ∈ s.rows, stance.isStance = true ∧ t = s.deleteWhere fun e => e.id == stance.id := by
  unfold deleteStance at h
  cases hget : getOwnedEdge s viewerId stanceId with
  | none =>
    rw [hget] at h
    cases h
    exact .inl rfl
  | some stance =>
    rw [hget] at h
    obtain ⟨horigin, h⟩ := check_eq_ok.1 h
    obtain ⟨hkind, h⟩ := check_eq_ok.1 h
    obtain ⟨-, rfl⟩ := deleteEdge_eq_ok.1 h
    obtain ⟨hmem, rfl, -⟩ := getOwnedEdge_eq_some.1 hget
    refine .inr ⟨stance, hmem, ?_, rfl⟩
    simpa [EdgeCreate.isStance, hkind] using horigin

/-- An accepted `put_stance` keeps the stance of the pair, or puts one where,
after a deletion at most, there is none. -/
theorem putStance_ok {request : PutStanceRequest} {row : ResourceEdge}
    (h : putStance env viewerId request s = .ok (t, row)) :
    t = s ∨ ∃ u : Edges, u.insert? row = .some t ∧ row.isStance = true ∧ row.userId = viewerId ∧
      (∀ e ∈ u.rows, e.isStance = true → e.userId = viewerId → e.joins row.source row.target = false) ∧
      (u = s ∨ ∃ prior ∈ s.rows, prior.isStance = true ∧ u = s.deleteWhere fun e => e.id == prior.id) := by
  obtain ⟨source, -, h⟩ := bind_eq_ok.1 h
  obtain ⟨targetInput, -, h⟩ := bind_eq_ok.1 h
  obtain ⟨_, -, h⟩ := bind_eq_ok.1 h
  obtain ⟨_, -, h⟩ := bind_eq_ok.1 h
  obtain ⟨target, -, h⟩ := bind_eq_ok.1 h
  obtain ⟨-, h⟩ := check_eq_ok.1 h
  obtain ⟨⟨u, edge⟩, hreplace, h⟩ := bind_eq_ok.1 h
  obtain ⟨connection, hconnection, h⟩ := bind_eq_ok.1 h
  unfold connectionForEdge at hconnection
  split at hconnection
  case isFalse => cases hconnection
  cases hconnection
  cases h
  have hkind : request.kind.edgeKind ≠ .context := by cases request.kind <;> decide
  have hinsert : ∀ {u : Edges}, createEdge env.toGraphView viewerId
      { source, target, kind := request.kind.edgeKind, origin := .user } u = .ok (t, row) →
      u.insert? row = .some t ∧ row.isStance = true ∧ row.userId = viewerId ∧ row.source = source ∧
        row.target = target := by
    intro u hcreate
    rcases createEdge_ok hcreate with ⟨hlink, -, -⟩ | ⟨rfl, hins⟩
    · simp [EdgeCreate.isNeutralLinkShape, hkind] at hlink
    · exact ⟨hins, by simp [EdgeCreate.isStance, hkind], rfl, rfl, rfl⟩
  have hselects : ∀ e ∈ s.rows, (e.userId == viewerId && e.isStanceShape && e.joins source target) = true ↔
      e.isStance = true ∧ e.userId = viewerId ∧ e.joins source target = true := by
    intro e he
    rw [isStanceShape_of_mem he, Bool.and_eq_true, Bool.and_eq_true, beq_iff_eq]
    constructor
    · exact fun ⟨⟨hu, hs⟩, hj⟩ => ⟨hs, hu, hj⟩
    · exact fun ⟨hs, hu, hj⟩ => ⟨⟨hu, hs⟩, hj⟩
  obtain ⟨found, hfound, h⟩ := bind_eq_ok.1 hreplace
  cases found with
  | none =>
    obtain ⟨hins, hstance, hu, hsource, htarget⟩ := hinsert h
    refine .inr ⟨s, hins, hstance, hu, ?_, .inl rfl⟩
    intro e he hse hue
    rw [hsource, htarget]
    have hnone := List.filter_eq_nil_iff.1 (scalarOneOrNone_eq_none.1 hfound) e he
    rw [hselects e he] at hnone
    simpa [hse, hue] using hnone
  | some prior =>
    obtain ⟨hprior, hsel⟩ := mem_of_scalar hfound
    have hpstance := ((hselects prior hprior).1 hsel).1
    simp only at h
    split at h
    · cases h
      exact .inl rfl
    · obtain ⟨u, hdelete, h⟩ := bind_eq_ok.1 h
      obtain ⟨-, rfl⟩ := deleteEdge_eq_ok.1 hdelete
      obtain ⟨hins, hstance, hu, hsource, htarget⟩ := hinsert h
      refine .inr ⟨_, hins, hstance, hu, ?_, .inr ⟨prior, hprior, hpstance, rfl⟩⟩
      intro e he hse hue
      obtain ⟨hes, hne⟩ := Store.mem_deleteWhere.1 he
      rw [hsource, htarget]
      -- the lookup found the prior alone
      by_contra hj
      have hmem : e ∈ s.rows.filter fun e => e.userId == viewerId && e.isStanceShape && e.joins source target :=
        List.mem_filter.2 ⟨hes, (hselects e hes).2 ⟨hse, hue, by simpa using hj⟩⟩
      rw [scalarOneOrNone_eq_some.1 hfound, List.mem_singleton] at hmem
      rw [hmem, beq_self_eq_true] at hne
      cases hne

end Commands

/-! ## Runs -/

section Runs

variable {sha : Sha256} {s t : GraphState} {call : RelationCall}

theorem RelationsOk.run (h : RelationsOk s.edges) (hrun : call.run sha s = .ok t) : RelationsOk t.edges := by
  unfold RelationCall.run at hrun
  cases hc : call.command with
  | createLink request =>
    rw [hc] at hrun
    obtain ⟨⟨u, out⟩, hcreate, rfl⟩ := map_eq_ok.1 hrun
    rcases createLink_ok hcreate with ⟨-, rfl⟩ | ⟨-, happly⟩
    · exact h
    · obtain ⟨source, _, target, write, -, -, -, hwrite, -⟩ := applyCreateLink_ok happly
      obtain ⟨-, hlink, -, ⟨-, -, hsame⟩ | ⟨-, -, hs, ht, hins⟩⟩ := createLinkEdge_ok hwrite
      · rw [hsame]; exact h
      · refine h.insert_link hins hlink ?_
        rw [hs, ht]
        exact canonicalPair_le source target
  | deleteLink linkId =>
    rw [hc] at hrun
    obtain ⟨edges, hdelete, rfl⟩ := map_eq_ok.1 hrun
    rcases deleteLink_ok hdelete with rfl | ⟨link, hmem, hu, -, rfl⟩
    · exact h
    · exact h.unlink hmem hu
  | putStance request =>
    rw [hc] at hrun
    obtain ⟨⟨edges, row⟩, hput, rfl⟩ := map_eq_ok.1 hrun
    rcases putStance_ok hput with rfl | ⟨u, hins, hstance, hu, hfree, hprior⟩
    · exact h
    · have hok : RelationsOk u := by
        rcases hprior with rfl | ⟨prior, hmem, hps, rfl⟩
        · exact h
        · exact h.delete_stance hmem hps
      exact hok.insert_stance hins hstance fun e he hse hue => hfree e he hse (hue.trans hu)
  | deleteStance stanceId =>
    rw [hc] at hrun
    obtain ⟨edges, hdelete, rfl⟩ := map_eq_ok.1 hrun
    rcases deleteStance_ok hdelete with rfl | ⟨stance, hmem, hs, rfl⟩
    · exact h
    · exact h.delete_stance hmem hs

theorem RelationsOk.of_reachable (h : (relationSystem sha).Reachable s) : RelationsOk s.edges := by
  refine h.invariant (I := fun s => RelationsOk s.edges) (fun s hs => .of_noRelations hs) ?_
  intro s call t hstep hok
  simp only [relationSystem, System.ofFun_step, Option.some.injEq] at hstep
  subst hstep
  unfold RelationCall.after
  cases hrun : call.run sha s with
  | ok t => exact hok.run hrun
  | error e => exact hok

/-! ### Frames -/

def stances (s : Edges) : List ResourceEdge := s.rows.filter fun e => e.isStance

def others (s : Edges) : List ResourceEdge := s.rows.filter fun e => !e.isStance

def RelationCall.onLinks (call : RelationCall) : Bool :=
  match call.command with
  | .createLink _ | .deleteLink _ => true
  | .putStance _ | .deleteStance _ => false

theorem stances_insert {s t : Edges} {row : ResourceEdge} (h : s.insert? row = .some t) (hrow : row.isStance = false) :
    stances t = stances s := by
  rw [stances, (Store.insert?_eq_some.1 h).2, List.filter_cons_of_neg (by simp [hrow])]
  rfl

theorem others_insert {s t : Edges} {row : ResourceEdge} (h : s.insert? row = .some t) (hrow : row.isStance = true) :
    others t = others s := by
  rw [others, (Store.insert?_eq_some.1 h).2, List.filter_cons_of_neg (by simp [hrow])]
  rfl

theorem others_delete {s : Edges} {stance : ResourceEdge} (hmem : stance ∈ s.rows) (hs : stance.isStance = true) :
    others (s.deleteWhere fun e => e.id == stance.id) = others s := by
  rw [others, others, Store.rows_deleteWhere, List.filter_filter]
  refine List.filter_congr fun e he => ?_
  by_cases hid : e.id = stance.id
  · rw [eq_of_id he hmem hid, hs]
    rfl
  · simp [hid]

theorem stances_unlink {s : Edges} {viewerId : Uuid} {link : ResourceEdge} (hmem : link ∈ s.rows)
    (hlink : link.isNeutralLinkShape = true) : stances (unlink viewerId link s) = stances s := by
  rw [stances, stances, unlink, detachLinkNoteMotif, Store.rows_deleteWhere, Store.rows_deleteWhere, List.filter_filter,
    List.filter_filter]
  refine List.filter_congr fun e he => ?_
  cases hstance : e.isStance with
  | false => rfl
  | true =>
    have hid : e.id ≠ link.id := by
      intro hid
      rw [eq_of_id he hmem hid] at hstance
      rw [isLink_of_stance hstance] at hlink
      cases hlink
    have horigin : (e.origin == .linkNote) = false := by
      simp only [EdgeCreate.isStance, Bool.and_eq_true, beq_iff_eq] at hstance
      rw [hstance.1]
      rfl
    simp [hid, horigin]

theorem run_frame (hrun : call.run sha s = .ok t) :
    (call.onLinks = true → stances t.edges = stances s.edges) ∧
      (call.onLinks = false → others t.edges = others s.edges) := by
  unfold RelationCall.run at hrun
  unfold RelationCall.onLinks
  cases hc : call.command with
  | createLink request =>
    rw [hc] at hrun
    refine ⟨fun _ => ?_, fun h => by cases h⟩
    obtain ⟨⟨u, out⟩, hcreate, rfl⟩ := map_eq_ok.1 hrun
    rcases createLink_ok hcreate with ⟨-, rfl⟩ | ⟨-, happly⟩
    · rfl
    · obtain ⟨source, _, target, write, -, -, -, hwrite, -⟩ := applyCreateLink_ok happly
      obtain ⟨-, hlink, -, ⟨-, -, hsame⟩ | ⟨-, -, -, -, hins⟩⟩ := createLinkEdge_ok hwrite
      · rw [hsame]
      · refine stances_insert hins ?_
        by_contra hstance
        rw [isLink_of_stance (by simpa using hstance)] at hlink
        cases hlink
  | deleteLink linkId =>
    rw [hc] at hrun
    refine ⟨fun _ => ?_, fun h => by cases h⟩
    obtain ⟨edges, hdelete, rfl⟩ := map_eq_ok.1 hrun
    rcases deleteLink_ok hdelete with rfl | ⟨link, hmem, -, hlink, rfl⟩
    · rfl
    · exact stances_unlink hmem hlink
  | putStance request =>
    rw [hc] at hrun
    refine ⟨fun h => (by cases h), fun _ => ?_⟩
    obtain ⟨⟨edges, row⟩, hput, rfl⟩ := map_eq_ok.1 hrun
    rcases putStance_ok hput with rfl | ⟨u, hins, hstance, -, -, hprior⟩
    · rfl
    · refine (others_insert hins hstance).trans ?_
      rcases hprior with rfl | ⟨prior, hmem, hps, rfl⟩
      · rfl
      · exact others_delete hmem hps
  | deleteStance stanceId =>
    rw [hc] at hrun
    refine ⟨fun h => (by cases h), fun _ => ?_⟩
    obtain ⟨edges, hdelete, rfl⟩ := map_eq_ok.1 hrun
    rcases deleteStance_ok hdelete with rfl | ⟨stance, hmem, hs, rfl⟩
    · rfl
    · exact others_delete hmem hs

/-! ### Creating, then deleting -/

/-- Deleting a Link just created leaves the table as it was: a pair without a
Link has no Link note to detach. -/
theorem deleteLink_of_created {s t : Edges} (hok : RelationsOk s) {viewerId : Uuid} {link : ResourceEdge}
    (hins : s.insert? link = .some t) (hu : link.userId = viewerId) (hlink : link.isNeutralLinkShape = true)
    (hne : link.source ≠ link.target) (hfree : ¬ Linked s viewerId link.source link.target) :
    deleteLink viewerId link.id t = .ok s := by
  have hmem : link ∈ t.rows := (Store.mem_insert? hins).2 (.inl rfl)
  have hget : getOwnedEdge t viewerId link.id = .some link := getOwnedEdge_eq_some.2 ⟨hmem, rfl, hu⟩
  have horigin : link.origin = .user := by
    simp only [EdgeCreate.isNeutralLinkShape, Bool.and_eq_true, beq_iff_eq] at hlink
    exact hlink.1.1
  have hdetach : detachLinkNoteMotif viewerId link.source link.target t = t := by
    refine Store.deleteWhere_eq_self fun e _ => ?_
    rw [Bool.and_eq_false_iff]
    right
    by_contra hm
    refine hfree (hok.motif_linked viewerId _ _ e.source hne (carriesMotif_mono (t := t) ?_ (by simpa using hm)))
    intro f hf hfo
    rcases (Store.mem_insert? hins).1 hf with rfl | hf
    · rw [horigin] at hfo; cases hfo
    · exact hf
  have hdelete : deleteEdge t viewerId link.id = .ok s :=
    deleteEdge_eq_ok.2 ⟨⟨link, hget⟩, (Store.deleteWhere_insert? hins).symm⟩
  unfold deleteLink
  simp only [hget, horigin, ne_eq, not_true_eq_false, if_false, hlink, Bool.not_true, Bool.false_eq_true, hdetach]
  exact hdelete

theorem linked_canonicalPair {s : Edges} {viewerId : Uuid} {x y : ResourceRef} :
    Linked s viewerId (canonicalPair x y).1 (canonicalPair x y).2 ↔ Linked s viewerId x y := by
  unfold Linked
  refine exists_congr fun e => ?_
  rw [joins_canonicalPair]

theorem canonicalPair_ne {x y : ResourceRef} (h : x ≠ y) : (canonicalPair x y).1 ≠ (canonicalPair x y).2 := by
  unfold canonicalPair
  split
  · exact h
  · exact h.symm

/-- **Links and stances stay unique, and Link commands keep to Links.** A
create that is no replay reports a new Link exactly when there was none. -/
theorem link_and_stance_uniqueness (sha : Sha256) {s : GraphState} (h : (relationSystem sha).Reachable s) :
    (∀ e ∈ s.edges.rows, ∀ f ∈ s.edges.rows, e.userId = f.userId → f.joins e.source e.target = true →
      (e.isNeutralLinkShape = true ∧ f.isNeutralLinkShape = true) ∨ (e.isStance = true ∧ f.isStance = true) →
      e = f) ∧
    (∀ e ∈ s.edges.rows, e.isNeutralLinkShape = true → e.source.le e.target = true) ∧
    (∀ env viewerId request t out, createLink sha env viewerId request s = .ok (t, out) →
      (t = s ∧ ∃ memo, s.mutations.find? (linkKey viewerId request) = .some memo ∧ memo.responseJson = out) ∨
      (s.mutations.find? (linkKey viewerId request) = .none ∧ ∃ source made target,
        resolveLinkSource env request.source = .ok (source, made) ∧ resolveLinkTarget env request.target = .ok target ∧
        (out.created = true ↔ ¬ Linked s.edges viewerId source target) ∧
        (out.connection ∈ t.edges.rows ∧ out.connection.userId = viewerId ∧
          out.connection.isNeutralLinkShape = true ∧ out.connection.joins source target = true) ∧
        (out.created = true → deleteLink viewerId out.connection.id t.edges = .ok s.edges))) ∧
    (∀ (call : RelationCall) t, call.run sha s = .ok t →
      (call.onLinks = true → stances t.edges = stances s.edges) ∧
      (call.onLinks = false → others t.edges = others s.edges)) := by
  have hok := RelationsOk.of_reachable h
  refine ⟨?_, hok.canonical, ?_, fun call t hrun => run_frame hrun⟩
  · intro e he f hf hu hj hshape
    rcases hshape with ⟨hle, hlf⟩ | ⟨hse, hsf⟩
    · exact hok.link_unique he hf hle hlf hu hj
    · exact hok.stance_unique e he f hf hse hsf hu hj
  · intro env viewerId request t out hcreate
    rcases createLink_ok hcreate with ⟨hfind, rfl⟩ | ⟨hfind, happly⟩
    · exact .inl ⟨rfl, _, hfind, rfl⟩
    obtain ⟨source, made, target, write, hsource, htarget, hne, hwrite, hcreated, hconnection, -⟩ :=
      applyCreateLink_ok happly
    refine .inr ⟨hfind, source, made, target, hsource, htarget, ?_⟩
    obtain ⟨hu, hlink, hj, hcase⟩ := createLinkEdge_ok hwrite
    rw [joins_canonicalPair] at hj
    rw [hcreated, hconnection]
    rcases hcase with ⟨hold, hmem, hsame⟩ | ⟨hnew, hfree, hs, ht, hins⟩
    · rw [hold, hsame]
      have hlinked : Linked s.edges viewerId source target := ⟨write.edge, hmem, hu, hlink, hj⟩
      exact ⟨by simp [hlinked], ⟨hmem, hu, hlink, hj⟩, fun h => by cases h⟩
    · rw [linked_canonicalPair] at hfree
      refine ⟨by simp [hnew, hfree], ⟨(Store.mem_insert? hins).2 (.inl rfl), hu, hlink, hj⟩, fun _ => ?_⟩
      refine deleteLink_of_created hok hins hu hlink ?_ ?_
      · rw [hs, ht]
        exact canonicalPair_ne hne
      · rwa [hs, ht, linked_canonicalPair]

/-! ### A replayed create -/

/-- `{"client_mutation_id":"m1", ...}`: a page, linked to a media. -/
def sampleRequest : CreateLinkRequest where
  clientMutationId := "m1".toList
  source := .resource "page:00000000-0000-0000-0000-000000000002".toList
  target := .resource "media:00000000-0000-0000-0000-000000000001".toList
  requestBytes := ascii ("\x7b\"client_mutation_id\":\"m1\",\"source\":\x7b\"kind\":\"resource\"," ++
    "\"ref\":\"page:00000000-0000-0000-0000-000000000002\"\x7d,\"target\":\x7b\"kind\":\"resource\"," ++
    "\"ref\":\"media:00000000-0000-0000-0000-000000000001\"\x7d\x7d")

def sampleSha : Sha256 where
  hexdigest bytes :=
    if bytes = sampleRequest.requestBytes then
      "56341048515245b1b66201094bcb0486d7c6c222af9bc41ee8104361d056a47c".toList
    else []

def sampleEnv : LinkEnv where
  visible _ := true
  newEdgeId := 7
  createHighlight := .error .database
  candidateOwnerAndQuote _ := .ok .none
  highlightQuote _ := .error .database
  materializeOrReuse _ _ := .error .database
  connectionListed := true

def sampleCall : RelationCall := ⟨1, sampleEnv, .createLink sampleRequest⟩

/-- The graph before and after the sample call. -/
def emptyGraph : GraphState := ⟨.empty, .empty⟩

def linkedGraph : GraphState := sampleCall.after sampleSha emptyGraph

def sampleLink : ResourceEdge where
  source := ⟨.media, 1⟩
  target := ⟨.page, 2⟩
  kind := .context
  origin := .user
  id := 7
  userId := 1

theorem reachable_linkedGraph : (relationSystem sampleSha).Reachable linkedGraph :=
  (System.Reachable.init (show NoRelations emptyGraph.edges by intro e he; cases he)).step rfl

theorem link_and_stance_uniqueness_linked :
    (relationSystem sampleSha).Reachable linkedGraph ∧
      ∀ e ∈ linkedGraph.edges.rows, e.isNeutralLinkShape = true → e.source.le e.target = true :=
  ⟨reachable_linkedGraph, (link_and_stance_uniqueness sampleSha reachable_linkedGraph).2.1⟩

/-- Repeated with its mutation id, the create answers from the memo: it reports
a new Link where there is one. -/
theorem created_reported_on_replay :
    (relationSystem sampleSha).Reachable linkedGraph ∧
      Linked linkedGraph.edges 1 ⟨.page, 2⟩ ⟨.media, 1⟩ ∧
      (createLink sampleSha sampleEnv 1 sampleRequest linkedGraph).toOption.map (fun r => r.2.created) = .some true := by
  have hend : linkedGraph.edges.rows = [sampleLink] ∧
      (createLink sampleSha sampleEnv 1 sampleRequest linkedGraph).toOption.map (fun r => r.2.created) = .some true := by
    simp only [linkedGraph, sampleCall, sampleSha, sampleRequest, ascii_append]
    rw [ascii_ofList, ascii_ofList, ascii_ofList, String.toList_ofList, String.toList_ofList,
      String.toList_ofList, String.toList_ofList]
    decide +kernel
  refine ⟨reachable_linkedGraph, ?_, hend.2⟩
  exact ⟨sampleLink, by rw [hend.1]; exact List.mem_singleton_self sampleLink, rfl, rfl, rfl⟩

end Runs

end Nexus.Graph
