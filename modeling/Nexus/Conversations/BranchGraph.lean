/-
The graph of a conversation's branches against the forest of its messages.

Both recursions of `build_branch_graph` go down one preorder of the forest:
`record_subtree` tells the size of each message's tree and one of its leaves
(`records`), `visit` writes a node for each message and an edge for each of its
children (`visits`). A forest has one preorder from its roots, with every
message once (`Forest.preordered`).
-/
import Nexus.Conversations.OfferedPaths
import Nexus.Lib.ForestOrder

namespace Nexus.Conversations
open Relational ExceptFacts ParentChain ForestOrder

/-! ## What the graph should say -/

def kids (messages : List Message) (m : Message) : List Message := childrenOf messages (.some m.id)

/-- `z` is `m`, or answers what is below `m`. -/
def Below (messages : List Message) : Message → Message → Prop := Relation.ReflTransGen fun a b => b ∈ kids messages a

def edgeOf (m : Message) : Option (Uuid × Uuid) := m.parentMessageId.map fun p => (p, m.id)

structure NodeOf (messages : List Message) (active : List Uuid) (m : Message) (n : BranchGraphNodeOut) : Prop where
  id_eq : n.id = m.id
  parent_eq : n.parentMessageId = m.parentMessageId
  count : ∃ below : List Message, (below.map fun z => z.id).Nodup ∧ (∀ z, z ∈ below ↔ Below messages m z) ∧ n.messageCount = below.length
  leaf : n.leaf = true ↔ kids messages m = []
  leafMessage : ∃ z, Below messages m z ∧ kids messages z = [] ∧ n.leafMessageId = z.id
  childCount : n.childCount = (kids messages m).length
  activePath : n.activePath = true ↔ m.id ∈ active

/-- The graph of the messages: their nodes in preorder, and the edges from
parent to child. -/
structure Draws (messages : List Message) (active : List Uuid) (graph : BranchGraphOut) : Prop where
  preorder : ∃ height listed, Preordered (kids messages) height (childrenOf messages .none) listed ∧ listed.Perm messages ∧
    List.Forall₂ (NodeOf messages active) listed graph.nodes
  siblings : ∀ p, (childrenOf messages p).Pairwise fun a b => a.le b = true
  rows : graph.nodes.map (fun n => n.row) = List.range graph.nodes.length
  edges : graph.edges.Perm (messages.filterMap edgeOf)
  root : graph.rootMessageId = (childrenOf messages .none).head?.map fun m => m.id

/-- The path of a message is the one way from its root down to it. -/
structure PathOf (db : BranchDb) (conversationId : Uuid) (m : Message) (path : List Message) : Prop where
  chain : ∃ up, Chain (parentId db) m.id up ∧ path.map (fun k => k.id) = up.reverse
  only : ∀ up, Chain (parentId db) m.id up → path.map (fun k => k.id) = up.reverse
  messages : ∀ k ∈ path, k ∈ conversationMessages db conversationId

section Facts

variable {db : BranchDb} {conversationId : Uuid}

theorem nodup_ids (db : BranchDb) (conversationId : Uuid) :
    ((conversationMessages db conversationId).map fun m => m.id).Nodup := by
  have hrows := db.messages.nodup
  refine ((List.mergeSort_perm _ _).map _).nodup_iff.2 ?_
  exact (List.filter_sublist.map _).nodup hrows

theorem eq_of_id {m m' : Message} (hm : m ∈ conversationMessages db conversationId)
    (hm' : m' ∈ conversationMessages db conversationId) (h : m.id = m'.id) : m = m' :=
  Table.eq_of_key (mem_rows_of_mem_messages hm) (mem_rows_of_mem_messages hm') h

theorem kids_spec {m : Message} :
    ∀ c ∈ kids (conversationMessages db conversationId) m,
      c ∈ conversationMessages db conversationId ∧ parentId db c.id = .some m.id := by
  intro c hc
  obtain ⟨hmem, hparent⟩ := mem_childrenOf.1 hc
  exact ⟨hmem, (parentId_of_mem hmem).trans hparent⟩

theorem Message.le_iff {a b : Message} : a.le b = true ↔ a.seq < b.seq ∨ a.seq = b.seq ∧ @LE.le Nat _ a.id b.id := by
  unfold Message.le
  rcases Nat.lt_trichotomy a.seq b.seq with h | h | h
  · simp [Nat.compare_eq_lt.2 h, h]
  · simp [h, Nat.isLE_compare]
  · have hne : a.seq ≠ b.seq := by omega
    simp [Nat.compare_eq_gt.2 h, hne]
    omega

theorem pairwise_childrenOf (db : BranchDb) (conversationId : Uuid) (p : Option Uuid) :
    (childrenOf (conversationMessages db conversationId) p).Pairwise fun a b => a.le b = true := by
  refine List.Pairwise.filter _ (List.pairwise_mergeSort ?_ ?_ _)
  · intro a b c hab hbc
    rw [Message.le_iff] at *
    omega
  · intro a b
    rw [Bool.or_eq_true, Message.le_iff, Message.le_iff]
    omega

/-! ## The preorder of a conversation -/

theorem Forest.preorder_nodup (w : Forest db conversationId) {height : Nat} {xs l : List Message} {p : Option Uuid}
    (h : Preordered (kids (conversationMessages db conversationId)) height xs l) (hnodup : (xs.map fun x => x.id).Nodup)
    (hxs : ∀ x ∈ xs, x ∈ conversationMessages db conversationId ∧ parentId db x.id = p) :
    (l.map fun x => x.id).Nodup := by
  have hchildren : ∀ x, x ∈ conversationMessages db conversationId → ∀ y ∈ kids (conversationMessages db conversationId) x,
      y ∈ conversationMessages db conversationId ∧ parentId db y.id = .some x.id := fun _ _ => kids_spec
  refine (h.nodup hchildren (fun x hx => w.chain hx) (fun x _ => ?_) hnodup hxs).1
  exact (List.filter_sublist.map _).nodup (nodup_ids db conversationId)

theorem Forest.preordered (w : Forest db conversationId) : ∃ listed,
    Preordered (kids (conversationMessages db conversationId)) ((conversationMessages db conversationId).length + 1)
      (childrenOf (conversationMessages db conversationId) .none) listed ∧
    (listed.map fun m => m.id).Nodup ∧ listed.Perm (conversationMessages db conversationId) := by
  have hroots : ∀ x ∈ childrenOf (conversationMessages db conversationId) .none,
      x ∈ conversationMessages db conversationId ∧ parentId db x.id = .none := by
    intro x hx
    obtain ⟨hmem, hparent⟩ := mem_childrenOf.1 hx
    exact ⟨hmem, (parentId_of_mem hmem).trans hparent⟩
  have hchildren : ∀ x, x ∈ conversationMessages db conversationId → ∀ y ∈ kids (conversationMessages db conversationId) x,
      y ∈ conversationMessages db conversationId ∧ parentId db y.id = .some x.id := fun _ _ => kids_spec
  obtain ⟨listed, hlisted⟩ := exists_preordered hchildren (fun x hx up hup => w.chain_length_le hx hup)
    ((conversationMessages db conversationId).length + 1) (childrenOf (conversationMessages db conversationId) .none)
    fun x hx => by
      obtain ⟨hmem, hparent⟩ := hroots x hx
      exact ⟨hmem, [x.id], .root hparent, by rw [List.length_singleton]; omega⟩
  have hnodup := w.preorder_nodup hlisted ((List.filter_sublist.map _).nodup (nodup_ids db conversationId)) hroots
  refine ⟨listed, hlisted, hnodup, ?_⟩
  refine (List.perm_ext_iff_of_nodup hnodup.of_map (nodup_ids db conversationId).of_map).2 fun m => ?_
  constructor
  · intro hm
    obtain ⟨r, hr, hrm⟩ := hlisted.mem_iff.1 hm
    induction hrm with
    | refl => exact (hroots r hr).1
    | tail _ hyz ih => exact (kids_spec _ hyz).1
  · intro hm
    obtain ⟨up, hup⟩ := w.chain hm
    clear hnodup
    generalize hid : m.id = x at hup
    induction hup generalizing m with
    | root hx =>
      subst hid
      exact hlisted.mem_of_mem (mem_childrenOf.2 ⟨hm, (parentId_of_mem hm).symm.trans hx⟩)
    | child hx _ ih =>
      subst hid
      rw [parentId_of_mem hm] at hx
      obtain ⟨hrow, hc⟩ := w.mem_messages.1 hm
      obtain ⟨q, hq, hqid, hqc, -⟩ := w.edge m hrow hc _ hx
      have hqm := w.mem_messages.2 ⟨hq, hqc⟩
      exact hlisted.child_mem (ih q hqm hqid) (mem_childrenOf.2 ⟨hm, by rw [hx, hqid]⟩)

end Facts

/-! ## Metadata -/

/-- An entry of `_subtree_metadata` tells of a message the size of its tree and
a leaf of it. -/
def Tells (messages : List Message) (e : Uuid × Uuid × Nat) : Prop :=
  ∃ m ∈ messages, m.id = e.1 ∧ ∃ height below, Preordered (kids messages) height [m] below ∧ e.2.2 = below.length ∧
    ∃ z ∈ below, kids messages z = [] ∧ z.id = e.2.1

/-- What `record_subtree` has told of the trees of some siblings. -/
structure Recorded (messages l : List Message) (metadata metadata' : SubtreeMetadata) : Prop where
  tells : ∀ e ∈ metadata', Tells messages e
  keys : ∀ k, k ∈ metadata'.map Prod.fst ↔ k ∈ metadata.map Prod.fst ∨ k ∈ l.map fun m => m.id

/-- A round of the loop over the children. -/
def recordChild (messages : List Message) (height : Nat) (visiting : List Uuid) (r : SubtreeMetadata × Uuid × Nat)
    (child : Message) : Except Abort (SubtreeMetadata × Uuid × Nat) := do
  let (metadata, childLeafId, childCount) ← recordSubtree messages height visiting child r.1
  .ok (metadata, childLeafId, r.2.2 + childCount)

section Traversals

variable {messages : List Message} {parent : Uuid → Option Uuid} {metadata : SubtreeMetadata}

theorem Recorded.cons {x : Message} {below after : List Message} {md md' md'' : SubtreeMetadata} {leafId : Uuid} {count : Nat}
    (hbelow : Recorded messages below md md')
    (hafter : Recorded messages after ((x.id, leafId, count) :: md') md'') :
    Recorded messages (x :: (below ++ after)) md md'' := by
  refine ⟨hafter.tells, fun k => ?_⟩
  rw [hafter.keys, List.map_cons, List.mem_cons, hbelow.keys, List.map_cons, List.mem_cons, List.map_append, List.mem_append]
  tauto

/-- **`record_subtree` tells the sizes and a leaf of every tree it goes through.** -/
theorem records (hkids : ∀ m, m ∈ messages → ∀ c ∈ kids messages m, c ∈ messages ∧ parent c.id = .some m.id)
    {height : Nat} {xs l : List Message} (h : Preordered (kids messages) height xs l) :
    ∀ {visiting : List Uuid}, (∀ x ∈ xs, x ∈ messages ∧ Chain parent x.id (x.id :: visiting)) →
    ∀ (md : SubtreeMetadata) (leafId : Uuid) (count : Nat), (∀ e ∈ md, Tells messages e) →
    ∃ md' leafId', xs.foldlM (recordChild messages height visiting) (md, leafId, count) = .ok (md', leafId', count + l.length) ∧
      Recorded messages l md md' ∧ (xs = [] ∧ leafId' = leafId ∨ ∃ z ∈ l, kids messages z = [] ∧ z.id = leafId') := by
  induction h with
  | nil =>
    intro visiting _ md leafId count hmd
    exact ⟨md, leafId, rfl, ⟨hmd, by simp⟩, .inl ⟨rfl, rfl⟩⟩
  | @cons height x rest below after hbelow hafter ihbelow ihafter =>
    intro visiting hxs md leafId count hmd
    obtain ⟨hx, hchain⟩ := hxs x List.mem_cons_self
    have hnew := (List.nodup_cons.1 hchain.nodup).1
    -- one child: its own children first
    have hone : ∃ md' leaf, recordSubtree messages (height + 1) visiting x md =
          .ok ((x.id, leaf, 1 + below.length) :: md', leaf, 1 + below.length) ∧ Recorded messages below md md' ∧
        ∃ z ∈ x :: below, kids messages z = [] ∧ z.id = leaf := by
      unfold recordSubtree
      rw [if_neg hnew]
      cases hchildren : childrenOf messages (.some x.id) with
      | nil =>
        have hempty : below = [] := by
          rw [kids, hchildren] at hbelow
          exact hbelow.eq_nil
        subst hempty
        exact ⟨md, x.id, rfl, ⟨hmd, by simp⟩, x, List.mem_cons_self, hchildren, rfl⟩
      | cons first others =>
        have hbelowx : ∀ c ∈ kids messages x, c ∈ messages ∧ Chain parent c.id (c.id :: x.id :: visiting) :=
          fun c hc => ⟨(hkids x hx c hc).1, .child (hkids x hx c hc).2 hchain⟩
        obtain ⟨md', leaf, hrun, hrec, hleaf⟩ := ihbelow hbelowx md first.id 1 hmd
        refine ⟨md', leaf, ?_, hrec, ?_⟩
        · rw [kids, hchildren] at hrun
          simp only
          rw [bind_eq_ok]
          exact ⟨_, hrun, rfl⟩
        · rcases hleaf with ⟨hnil, -⟩ | ⟨z, hz, hzleaf, hzid⟩
          · rw [kids, hchildren] at hnil
            cases hnil
          · exact ⟨z, List.mem_cons_of_mem _ hz, hzleaf, hzid⟩
    obtain ⟨md', leaf, hrun, hrec, z, hz, hzleaf, hzid⟩ := hone
    have hown : Preordered (kids messages) (height + 1) [x] (x :: (below ++ [])) := .cons hbelow .nil
    have htells : Tells messages (x.id, leaf, 1 + below.length) := by
      refine ⟨x, hx, rfl, _, _, hown, ?_, z, ?_, hzleaf, hzid⟩
      · simp only [List.append_nil, List.length_cons]
        omega
      · rwa [List.append_nil]
    obtain ⟨md'', leaf'', hrest, hrec', hleaf⟩ := ihafter (fun y hy => hxs y (List.mem_cons_of_mem _ hy))
      ((x.id, leaf, 1 + below.length) :: md') leaf (count + (1 + below.length))
      (List.forall_mem_cons.2 ⟨htells, hrec.tells⟩)
    refine ⟨md'', leaf'', ?_, hrec.cons hrec', ?_⟩
    · rw [List.foldlM_cons, bind_eq_ok]
      refine ⟨(((x.id, leaf, 1 + below.length) :: md'), leaf, count + (1 + below.length)), ?_, ?_⟩
      · unfold recordChild
        rw [bind_eq_ok]
        exact ⟨_, hrun, rfl⟩
      · rw [hrest, List.length_cons, List.length_append]
        congr 3
        omega
    · right
      rcases hleaf with ⟨-, rfl⟩ | ⟨z', hz', hleaf'⟩
      · refine ⟨z, ?_, hzleaf, hzid⟩
        rcases List.mem_cons.1 hz with rfl | hz
        · exact List.mem_cons_self
        · exact List.mem_cons_of_mem _ (List.mem_append_left _ hz)
      · exact ⟨z', List.mem_cons_of_mem _ (List.mem_append_right _ hz'), hleaf'⟩

theorem records_one (hkids : ∀ m, m ∈ messages → ∀ c ∈ kids messages m, c ∈ messages ∧ parent c.id = .some m.id)
    {height : Nat} {x : Message} {l : List Message} (h : Preordered (kids messages) height [x] l) (hx : x ∈ messages)
    (hroot : parent x.id = .none) {md : SubtreeMetadata} (hmd : ∀ e ∈ md, Tells messages e) :
    ∃ r, recordSubtree messages height [] x md = .ok r ∧ Recorded messages l md r.1 := by
  have hxs : ∀ y ∈ [x], y ∈ messages ∧ Chain parent y.id [y.id] := by
    intro y hy
    obtain rfl := List.mem_singleton.1 hy
    exact ⟨hx, .root hroot⟩
  obtain ⟨md', leaf, hrun, hrec, -⟩ := records hkids h hxs md x.id 0 hmd
  rw [List.foldlM_cons] at hrun
  obtain ⟨_, hrun, heq⟩ := bind_eq_ok.1 hrun
  obtain ⟨r, hr, hstep⟩ := bind_eq_ok.1 hrun
  refine ⟨r, hr, ?_⟩
  rw [← Except.ok.inj hstep] at heq
  obtain ⟨hmd', -⟩ := Prod.mk.inj (Except.ok.inj heq)
  exact hmd' ▸ hrec

/-- A round of the loop over the roots. -/
def recordRoot (messages : List Message) (metadata : SubtreeMetadata) (root : Message) : Except Abort SubtreeMetadata :=
  if (metadata.get root.id).isSome then .ok metadata
  else (recordSubtree messages (messages.length + 1) [] root metadata).map fun r => r.1

theorem get_isSome_iff {id : Uuid} : (metadata.get id).isSome = true ↔ id ∈ metadata.map Prod.fst := by
  rw [SubtreeMetadata.get, List.lookup_isSome_iff, List.mem_map]
  constructor
  · rintro ⟨e, he, hid⟩
    exact ⟨e, he, (beq_iff_eq.1 hid).symm⟩
  · rintro ⟨e, he, rfl⟩
    exact ⟨e, he, beq_self_eq_true _⟩

theorem records_roots (hkids : ∀ m, m ∈ messages → ∀ c ∈ kids messages m, c ∈ messages ∧ parent c.id = .some m.id) :
    ∀ {xs l : List Message}, Preordered (kids messages) (messages.length + 1) xs l → (l.map fun m => m.id).Nodup →
    (∀ x ∈ xs, x ∈ messages ∧ parent x.id = .none) → ∀ {md : SubtreeMetadata}, (∀ e ∈ md, Tells messages e) →
    (∀ m ∈ l, m.id ∉ md.map Prod.fst) →
    ∃ md', xs.foldlM (recordRoot messages) md = .ok md' ∧ Recorded messages l md md' := by
  intro xs
  induction xs with
  | nil =>
    intro l h _ _ md hmd _
    rw [h.eq_nil]
    exact ⟨md, rfl, ⟨hmd, by simp⟩⟩
  | cons x rest ih =>
    intro l h hnodup hxs md hmd hnew
    cases h with
    | @cons height _ _ below after hbelow hafter =>
      rw [List.map_cons, List.map_append, List.nodup_cons, List.nodup_append] at hnodup
      obtain ⟨hxnew, -, hafternodup, hapart⟩ := hnodup
      obtain ⟨hx, hroot⟩ := hxs x List.mem_cons_self
      have hown : Preordered (kids messages) (messages.length + 1) [x] (x :: (below ++ [])) := .cons hbelow .nil
      rw [List.append_nil] at hown
      obtain ⟨⟨md', leaf, count⟩, hrun, hrec⟩ := records_one hkids hown hx hroot hmd
      have hnone : ¬ (md.get x.id).isSome = true := by
        rw [get_isSome_iff]
        exact hnew x List.mem_cons_self
      have hnew' : ∀ m ∈ after, m.id ∉ md'.map Prod.fst := by
        intro m hm hmem
        rcases (hrec.keys m.id).1 hmem with hmem | hmem
        · exact hnew m (List.mem_cons_of_mem _ (List.mem_append_right _ hm)) hmem
        · rw [List.map_cons, List.mem_cons] at hmem
          rcases hmem with hmem | hmem
          · exact hxnew (List.mem_append_right _ (hmem ▸ List.mem_map_of_mem hm))
          · exact hapart _ hmem _ (List.mem_map_of_mem hm) rfl
      obtain ⟨md'', hrest, hrec'⟩ := ih hafter hafternodup (fun y hy => hxs y (List.mem_cons_of_mem _ hy)) hrec.tells hnew'
      refine ⟨md'', ?_, hrec'.tells, fun k => ?_⟩
      · rw [List.foldlM_cons, recordRoot, if_neg hnone, hrun]
        exact hrest
      · rw [hrec'.keys, hrec.keys, List.map_cons, List.map_cons, List.map_append, List.mem_cons, List.mem_cons,
          List.mem_append]
        tauto

end Traversals

section Graph

variable {db : BranchDb} {conversationId : Uuid} {metadata : SubtreeMetadata} {active : List Uuid}

theorem Forest.subtreeMetadata (w : Forest db conversationId) :
    ∃ md, Conversations.subtreeMetadata (conversationMessages db conversationId)
        (subtreeRoots (conversationMessages db conversationId)) = .ok md ∧
      (∀ e ∈ md, Tells (conversationMessages db conversationId) e) ∧
      ∀ m ∈ conversationMessages db conversationId, m.id ∈ md.map Prod.fst := by
  obtain ⟨listed, hlisted, hnodup, hperm⟩ := w.preordered
  have hroots : subtreeRoots (conversationMessages db conversationId) =
      childrenOf (conversationMessages db conversationId) .none := by
    unfold subtreeRoots
    split
    next hempty =>
      rw [List.isEmpty_iff.1 hempty] at hlisted ⊢
      rw [hlisted.eq_nil] at hperm
      rw [← hperm.nil_eq, List.take_nil]
    next => rfl
  have hxs : ∀ x ∈ childrenOf (conversationMessages db conversationId) .none,
      x ∈ conversationMessages db conversationId ∧ parentId db x.id = .none := by
    intro x hx
    obtain ⟨hmem, hparent⟩ := mem_childrenOf.1 hx
    exact ⟨hmem, (parentId_of_mem hmem).trans hparent⟩
  have hnone : ∀ e ∈ ([] : SubtreeMetadata), Tells (conversationMessages db conversationId) e := by simp
  obtain ⟨md, hrun, hrec⟩ := records_roots (fun _ _ => kids_spec) hlisted hnodup hxs hnone (by simp)
  rw [hroots]
  refine ⟨md, hrun, hrec.tells, fun m hm => ?_⟩
  exact (hrec.keys m.id).2 (.inr (List.mem_map_of_mem (hperm.mem_iff.2 hm)))

theorem Forest.told (w : Forest db conversationId) (htells : ∀ e ∈ metadata, Tells (conversationMessages db conversationId) e)
    {m : Message} (hm : m ∈ conversationMessages db conversationId) (hkey : m.id ∈ metadata.map Prod.fst) :
    ∃ leaf count, metadata.get m.id = .some (leaf, count) ∧
      (∃ below : List Message, (below.map fun z => z.id).Nodup ∧
        (∀ z, z ∈ below ↔ Below (conversationMessages db conversationId) m z) ∧ count = below.length) ∧
      ∃ z, Below (conversationMessages db conversationId) m z ∧ kids (conversationMessages db conversationId) z = [] ∧
        leaf = z.id := by
  obtain ⟨⟨leaf, count⟩, hget⟩ := Option.isSome_iff_exists.1 (get_isSome_iff.2 hkey)
  obtain ⟨l₁, l₂, hmd, -⟩ := List.lookup_eq_some_iff.1 hget
  obtain ⟨m', hm', hid, height, below, hbelow, hcount, z, hz, hleaf, hzid⟩ :=
    htells (m.id, leaf, count) (hmd ▸ List.mem_append_right _ List.mem_cons_self)
  obtain rfl := eq_of_id hm' hm hid
  have hmem : ∀ z, z ∈ below ↔ Below (conversationMessages db conversationId) m' z := by
    intro z
    rw [hbelow.mem_iff]
    simp [Below]
  have hnodup := w.preorder_nodup hbelow (List.nodup_singleton _) fun x hx => by
    obtain rfl := List.mem_singleton.1 hx
    exact ⟨hm, rfl⟩
  exact ⟨leaf, count, hget, ⟨below, hnodup, hmem, hcount⟩, z, (hmem z).1 hz, hleaf, hzid.symm⟩

/-- The node `visit` writes. -/
def nodeAt (db : BranchDb) (conversationId : Uuid) (messages : List Message) (active : List Uuid) (message : Message)
    (depth row : Nat) (leafMessageId : Uuid) (messageCount : Nat) (status : ForkStatus) : BranchGraphNodeOut where
  id := message.id
  parentMessageId := message.parentMessageId
  leafMessageId
  role := message.role
  depth
  row
  title := ((branchOf db conversationId message.id).filter fun _ => message.role == .user).bind fun b => b.title
  preview := preview message.content
  branchAnchorPreview := branchAnchorPreview message
  status
  messageCount
  childCount := (kids messages message).length
  activePath := active.contains message.id
  leaf := (kids messages message).isEmpty
  createdAt := message.createdAt

theorem visit_new {messages : List Message} {height depth : Nat} {message : Message} {g : GraphState} {status : ForkStatus}
    {leaf : Uuid} {count : Nat} (hnew : message.id ∉ g.visited)
    (hstatus : graphNodeStatus db message (kids messages message) = .ok status)
    (hget : metadata.get message.id = .some (leaf, count)) :
    visit db conversationId messages metadata active (height + 1) message depth g =
      (kids messages message).foldlM
        (fun g child => visit db conversationId messages metadata active height child (depth + 1)
          { g with edges := g.edges ++ [(message.id, child.id)] })
        { g with
          nodes := g.nodes ++
            [nodeAt db conversationId messages active message depth g.nodes.length leaf count status]
          visited := message.id :: g.visited } := by
  rw [kids] at hstatus
  conv_lhs => unfold visit
  rw [if_neg hnew]
  simp only [hstatus, hget, bind, Except.bind, Option.map_some, Option.getD_some]
  rfl

theorem visit_visited {messages : List Message} {height depth : Nat} {message : Message} {g : GraphState}
    (h : message.id ∈ g.visited) : visit db conversationId messages metadata active (height + 1) message depth g = .ok g := by
  unfold visit
  rw [if_pos h]

/-- **`visit` writes the nodes of what is below, in preorder, and the edges to
them.** -/
theorem Forest.visits (w : Forest db conversationId) (htells : ∀ e ∈ metadata, Tells (conversationMessages db conversationId) e)
    (hkeys : ∀ m ∈ conversationMessages db conversationId, m.id ∈ metadata.map Prod.fst) {height : Nat} {xs l : List Message}
    (h : Preordered (kids (conversationMessages db conversationId)) height xs l) : ∀ (depth : Nat) (g : GraphState)
      (step : GraphState → Message → Except Abort GraphState),
    (∀ x ∈ xs, x ∈ conversationMessages db conversationId) →
    (∀ x ∈ xs, ∀ g, step g x = visit db conversationId (conversationMessages db conversationId) metadata active
      height x depth { g with edges := g.edges ++ (edgeOf x).toList }) →
    (l.map fun m => m.id).Nodup → (∀ m ∈ l, m.id ∉ g.visited) →
    ∃ nodes, xs.foldlM step g =
        .ok ⟨g.nodes ++ nodes, g.edges ++ l.filterMap edgeOf, (l.map fun m => m.id).reverse ++ g.visited⟩ ∧
      List.Forall₂ (NodeOf (conversationMessages db conversationId) active) l nodes ∧
      nodes.map (fun n => n.row) = List.range' g.nodes.length nodes.length := by
  induction h with
  | nil =>
    intro depth g step _ _ _ _
    exact ⟨[], by simp [pure, Except.pure], .nil, rfl⟩
  | @cons height x rest below after hbelow hafter ihbelow ihafter =>
    intro depth g step hxs hstep hnodup hnew
    have hx := hxs x List.mem_cons_self
    rw [List.map_cons, List.map_append, List.nodup_cons, List.nodup_append] at hnodup
    obtain ⟨hxnew, hbelownodup, hafternodup, hapart⟩ := hnodup
    obtain ⟨leaf, count, hget, hcount, hleaf⟩ := w.told htells hx (hkeys x hx)
    have hstatus : ∃ status, graphNodeStatus db x (kids (conversationMessages db conversationId) x) = .ok status := by
      unfold graphNodeStatus
      split
      · exact w.forkStatus fun a ha => by cases ha; exact hx
      · exact w.forkStatus fun a => firstAssistantChild_mem
    obtain ⟨status, hstatus⟩ := hstatus
    have hrun := (hstep x List.mem_cons_self g).trans
      (visit_new (g := { g with edges := g.edges ++ (edgeOf x).toList }) (hnew x List.mem_cons_self) hstatus hget)
    dsimp only at hrun
    generalize hnode : nodeAt db conversationId (conversationMessages db conversationId) active x depth g.nodes.length leaf
      count status = node at hrun
    have hnodeOf : NodeOf (conversationMessages db conversationId) active x node := by
      subst hnode
      exact ⟨rfl, rfl, hcount, List.isEmpty_iff, hleaf, rfl, by simp [nodeAt]⟩
    have hrow : node.row = g.nodes.length := by
      subst hnode
      rfl
    -- the children, from the graph with the message's own node
    have hkids : ∀ c ∈ kids (conversationMessages db conversationId) x, ∀ g : GraphState,
        visit db conversationId (conversationMessages db conversationId) metadata active height c (depth + 1)
          { g with edges := g.edges ++ [(x.id, c.id)] } =
        visit db conversationId (conversationMessages db conversationId) metadata active height c (depth + 1)
          { g with edges := g.edges ++ (edgeOf c).toList } := by
      intro c hc g
      have hedge : edgeOf c = .some (x.id, c.id) := by rw [edgeOf, (mem_childrenOf.1 hc).2, Option.map_some]
      rw [hedge, Option.toList_some]
    obtain ⟨belowNodes, hbelowrun, hbelownodes, hbelowrows⟩ := ihbelow (depth + 1)
      ⟨g.nodes ++ [node], g.edges ++ (edgeOf x).toList, x.id :: g.visited⟩ _ (fun c hc => (kids_spec c hc).1) hkids
      hbelownodup fun m hm hmem => by
        rcases List.mem_cons.1 hmem with heq | hmem
        · exact hxnew (List.mem_append_left _ (heq ▸ List.mem_map_of_mem hm))
        · exact hnew m (List.mem_cons_of_mem _ (List.mem_append_left _ hm)) hmem
    obtain ⟨afterNodes, hafterrun, hafternodes, hafterrows⟩ := ihafter depth
      ⟨g.nodes ++ [node] ++ belowNodes, g.edges ++ (edgeOf x).toList ++ below.filterMap edgeOf,
        (below.map fun m => m.id).reverse ++ x.id :: g.visited⟩ step (fun y hy => hxs y (List.mem_cons_of_mem _ hy))
      (fun y hy => hstep y (List.mem_cons_of_mem _ hy)) hafternodup fun m hm hmem => by
        rcases List.mem_append.1 hmem with hmem | hmem
        · exact hapart _ (List.mem_reverse.1 hmem) _ (List.mem_map_of_mem hm) rfl
        · rcases List.mem_cons.1 hmem with heq | hmem
          · exact hxnew (List.mem_append_right _ (heq ▸ List.mem_map_of_mem hm))
          · exact hnew m (List.mem_cons_of_mem _ (List.mem_append_right _ hm)) hmem
    refine ⟨node :: (belowNodes ++ afterNodes), ?_, ?_, ?_⟩
    · rw [List.foldlM_cons, bind_eq_ok]
      refine ⟨_, hrun.trans hbelowrun, hafterrun.trans ?_⟩
      cases hedge : edgeOf x <;> simp [hedge]
    · exact .cons hnodeOf (List.rel_append hbelownodes hafternodes)
    · have hlength := hbelownodes.length_eq
      simp only [List.length_append, List.length_singleton] at hbelowrows hafterrows
      rw [List.map_cons, List.map_append, hbelowrows, hafterrows, hrow, List.length_cons, List.length_append,
        List.range'_succ, List.range'_append_1]

theorem foldlM_visited {messages : List Message} {height depth : Nat} {g : GraphState} :
    ∀ xs : List Message, (∀ x ∈ xs, x.id ∈ g.visited) →
      xs.foldlM (fun g m => visit db conversationId messages metadata active (height + 1) m depth g) g = .ok g
  | [], _ => rfl
  | x :: xs, h => by
    rw [List.foldlM_cons, bind_eq_ok]
    exact ⟨g, visit_visited (h x List.mem_cons_self), foldlM_visited xs fun y hy => h y (List.mem_cons_of_mem _ hy)⟩

theorem Forest.draws (w : Forest db conversationId) (active : List Uuid) : ∃ graph,
    buildBranchGraph db conversationId active (conversationMessages db conversationId) = .ok graph ∧
      Draws (conversationMessages db conversationId) active graph := by
  obtain ⟨metadata, hmetadata, htells, hkeys⟩ := w.subtreeMetadata
  obtain ⟨listed, hlisted, hnodup, hperm⟩ := w.preordered
  have hroots : ∀ x ∈ childrenOf (conversationMessages db conversationId) .none, ∀ g : GraphState,
      visit db conversationId (conversationMessages db conversationId) metadata active
        ((conversationMessages db conversationId).length + 1) x 0 g =
      visit db conversationId (conversationMessages db conversationId) metadata active
        ((conversationMessages db conversationId).length + 1) x 0 { g with edges := g.edges ++ (edgeOf x).toList } := by
    intro x hx g
    have hedge : edgeOf x = .none := by rw [edgeOf, (mem_childrenOf.1 hx).2, Option.map_none]
    rw [hedge, Option.toList_none, List.append_nil]
  obtain ⟨nodes, hrun, hnodes, hrows⟩ := w.visits htells hkeys hlisted 0 ⟨[], [], []⟩ _
    (fun x hx => (mem_childrenOf.1 hx).1) hroots hnodup fun m _ hm => by cases hm
  simp only [List.nil_append, List.append_nil] at hrun
  cases hmessages : conversationMessages db conversationId with
  | nil =>
    refine ⟨_, rfl, ⟨1, [], .nil, .nil, .nil⟩, fun _ => ?_, rfl, .nil, rfl⟩
    exact .nil
  | cons first rest =>
    have hsame : (childrenOf (conversationMessages db conversationId) .none ++ conversationMessages db conversationId).foldlM
        (fun g m => visit db conversationId (conversationMessages db conversationId) metadata active
          ((conversationMessages db conversationId).length + 1) m 0 g) ⟨[], [], []⟩ =
        .ok ⟨nodes, listed.filterMap edgeOf, (listed.map fun m => m.id).reverse⟩ := by
      rw [List.foldlM_append, bind_eq_ok]
      refine ⟨_, hrun, foldlM_visited _ fun m hm => ?_⟩
      exact List.mem_reverse.2 (List.mem_map_of_mem (hperm.mem_iff.2 hm))
    have hhead : childrenOf (conversationMessages db conversationId) .none ≠ [] := by
      have hfirst : first ∈ conversationMessages db conversationId := hmessages ▸ List.mem_cons_self
      obtain ⟨up, hup⟩ := w.chain hfirst
      exact w.exists_root hup first hfirst rfl
    have hdraws : Draws (conversationMessages db conversationId) active ⟨nodes, listed.filterMap edgeOf,
        .some (((childrenOf (conversationMessages db conversationId) .none).head?.map fun m => m.id).getD first.id)⟩ := by
      refine ⟨⟨_, listed, hlisted, hperm, hnodes⟩, pairwise_childrenOf db conversationId, ?_, hperm.filterMap _, ?_⟩
      · rw [hrows, List.length_nil, List.range_eq_range']
      · obtain ⟨root, others, hcons⟩ := List.exists_cons_of_ne_nil hhead
        rw [hcons]
        rfl
    rw [hmessages] at hmetadata hsame hdraws
    refine ⟨_, ?_, hdraws⟩
    unfold buildBranchGraph
    simp only
    rw [bind_eq_ok]
    refine ⟨metadata, hmetadata, ?_⟩
    rw [bind_eq_ok]
    exact ⟨_, hsame, rfl⟩

theorem Forest.pathOf (w : Forest db conversationId) {m : Message} (hm : m ∈ conversationMessages db conversationId) :
    ∃ path, Conversations.messagePath (conversationMessages db conversationId) conversationId m.id = .ok path ∧
      PathOf db conversationId m path := by
  obtain ⟨up, hup⟩ := w.chain hm
  obtain ⟨path, hpath, hids, hmem⟩ := w.messagePath hm hup
  refine ⟨path, hpath, ⟨up, hup, hids⟩, fun up' hup' => ?_, hmem⟩
  rw [hids, hup.unique hup']

/-- **The graph of a forest of messages has each of them once, in preorder, with
the size of its tree and one of the tree's leaves, and exactly the edges from
parent to child; and the path of each message is its one way from the root.** -/
theorem branch_graph (w : Forest db conversationId) (active : List Uuid) :
    (∃ graph, buildBranchGraph db conversationId active (conversationMessages db conversationId) = .ok graph ∧
      Draws (conversationMessages db conversationId) active graph) ∧
    ∀ m ∈ conversationMessages db conversationId,
      ∃ path, messagePath (conversationMessages db conversationId) conversationId m.id = .ok path ∧
        PathOf db conversationId m path :=
  ⟨w.draws active, fun _ hm => w.pathOf hm⟩

theorem branch_graph_twoForks :
    (∃ graph, buildBranchGraph twoForksDb 100 [1, 2] (conversationMessages twoForksDb 100) = .ok graph ∧
      Draws (conversationMessages twoForksDb 100) [1, 2] graph) ∧
    ∀ m ∈ conversationMessages twoForksDb 100, ∃ path, messagePath (conversationMessages twoForksDb 100) 100 m.id = .ok path ∧
      PathOf twoForksDb 100 m path :=
  branch_graph wellFormed_twoForks.forest [1, 2]

end Graph

end Nexus.Conversations
