/-
Which of the leaves a conversation's tree and its list of forks offer can be
switched to.

In a well-formed conversation every path loads and the tree is always there
(`exists_tree`). A childless node of the graph can be switched to; a fork is
offered under the first answer to its user message, which is a leaf only while
nothing was said after it (`offers_activate_iff`).
-/
import Mathlib.Data.List.Dedup
import Nexus.Conversations.Branches
import Nexus.Lib.ExceptFacts
import Nexus.Lib.ParentChain

namespace Nexus.Conversations
open Relational ExceptFacts ParentChain

/-! ## Well-formed conversations -/

def alternates : MessageRole → MessageRole → Bool
  | .user, .assistant | .assistant, .user => true
  | _, _ => false

def parentId (db : BranchDb) (id : Uuid) : Option Uuid := (db.messages.find? id).bind fun m => m.parentMessageId

/-- The messages of the conversation are a forest of turns, and its branches
are those of the user messages that answer something. -/
structure WellFormed (db : BranchDb) (conversationId : Uuid) : Prop where
  rooted : ∀ m ∈ db.messages.rows, m.conversationId = conversationId → ∃ up, Chain (parentId db) m.id up
  root : ∀ m ∈ db.messages.rows, m.conversationId = conversationId → m.parentMessageId = .none → m.role = .user
  edge : ∀ m ∈ db.messages.rows, m.conversationId = conversationId → ∀ p, m.parentMessageId = .some p →
    ∃ q ∈ db.messages.rows, q.id = p ∧ q.conversationId = conversationId ∧ alternates q.role m.role = true
  branch : ∀ m ∈ db.messages.rows, m.conversationId = conversationId → m.role = .user → m.parentMessageId.isSome = true →
    (branchOf db conversationId m.id).isSome = true
  branched : ∀ b ∈ db.branches.rows, b.conversationId = conversationId → ∃ m ∈ db.messages.rows,
    m.id = b.branchUserMessageId ∧ m.conversationId = conversationId ∧ m.role = .user ∧ m.parentMessageId.isSome = true
  /-- `finalize_run` cancels a message and its run together -/
  cancelled : ∀ m ∈ db.messages.rows, m.status = .cancelled → db.runStatus m.id = .some .cancelled

/-- What the paths and the graph need: the messages are a forest of turns. -/
structure Forest (db : BranchDb) (conversationId : Uuid) : Prop where
  rooted : ∀ m ∈ db.messages.rows, m.conversationId = conversationId → ∃ up, Chain (parentId db) m.id up
  root : ∀ m ∈ db.messages.rows, m.conversationId = conversationId → m.parentMessageId = .none → m.role = .user
  edge : ∀ m ∈ db.messages.rows, m.conversationId = conversationId → ∀ p, m.parentMessageId = .some p →
    ∃ q ∈ db.messages.rows, q.id = p ∧ q.conversationId = conversationId ∧ alternates q.role m.role = true
  cancelled : ∀ m ∈ db.messages.rows, m.status = .cancelled → db.runStatus m.id = .some .cancelled

theorem WellFormed.forest {db : BranchDb} {conversationId : Uuid} (w : WellFormed db conversationId) :
    Forest db conversationId := ⟨w.rooted, w.root, w.edge, w.cancelled⟩

/-- The leaf is accepted, and the path then selected has the message on it. -/
def Activates (db : BranchDb) (viewerId conversationId leafId userMessageId : Uuid) : Prop :=
  ∃ db' tree, setActivePath db viewerId conversationId leafId = .ok (db', tree) ∧
    userMessageId ∈ tree.selectedPath.map fun m => m.id

/-- Every leaf offered for switching can be switched to. -/
structure OffersActivate (ilike : List Char → List Char → Bool) (db : BranchDb) (viewerId conversationId : Uuid) : Prop where
  cache : ∀ tree, getConversationTree db viewerId conversationId = .ok tree → ∀ e ∈ tree.pathCacheByLeafId,
    Activates db viewerId conversationId e.1 e.1
  options : ∀ tree, getConversationTree db viewerId conversationId = .ok tree → ∀ p ∈ tree.forkOptionsByParentId,
    ∀ o ∈ p.2, Activates db viewerId conversationId o.leafMessageId o.userMessageId
  forks : ∀ search options, listForks ilike db viewerId conversationId search = .ok options →
    ∀ o ∈ options, Activates db viewerId conversationId o.leafMessageId o.userMessageId

/-- Nothing was said after the first answer to a branch's user message. -/
def ForksUncontinued (db : BranchDb) (conversationId : Uuid) : Prop :=
  ∀ b ∈ db.branches.rows, b.conversationId = conversationId →
    ∀ answer, firstAssistantChild (childrenOf (conversationMessages db conversationId) (.some b.branchUserMessageId)) =
      .some answer → childrenOf (conversationMessages db conversationId) (.some answer.id) = []

section Facts

variable {db : BranchDb} {conversationId viewerId : Uuid}

/-! ## Messages -/

theorem Forest.role_ne_system (w : Forest db conversationId) {m : Message} (hm : m ∈ db.messages.rows)
    (hc : m.conversationId = conversationId) : m.role ≠ .system := by
  intro hrole
  cases hp : m.parentMessageId with
  | none =>
    have huser := w.root m hm hc hp
    rw [hrole] at huser
    cases huser
  | some p =>
    obtain ⟨q, -, -, -, halt⟩ := w.edge m hm hc p hp
    rw [hrole] at halt
    cases hq : q.role <;> rw [hq] at halt <;> cases halt

theorem Forest.mem_messages (w : Forest db conversationId) {m : Message} :
    m ∈ conversationMessages db conversationId ↔ m ∈ db.messages.rows ∧ m.conversationId = conversationId := by
  unfold conversationMessages
  simp only [List.mem_mergeSort, List.mem_filter, Bool.and_eq_true, beq_iff_eq, bne_iff_ne]
  constructor
  · rintro ⟨hm, hc, -⟩
    exact ⟨hm, hc⟩
  · rintro ⟨hm, hc⟩
    exact ⟨hm, hc, w.role_ne_system hm hc⟩

theorem mem_rows_of_mem_messages {m : Message} (h : m ∈ conversationMessages db conversationId) : m ∈ db.messages.rows :=
  (List.mem_filter.1 (List.mem_mergeSort.1 h)).1

theorem messageById_of_mem {m : Message} (hm : m ∈ conversationMessages db conversationId) :
    messageById (conversationMessages db conversationId) m.id = .some m := by
  unfold messageById
  cases hfind : (conversationMessages db conversationId).find? fun k => k.id == m.id with
  | none =>
    have hnone := List.find?_eq_none.1 hfind m hm
    simp at hnone
  | some k =>
    have hid := List.find?_some hfind
    simp only [beq_iff_eq] at hid
    have hk := mem_rows_of_mem_messages (List.mem_of_find?_eq_some hfind)
    rw [Table.eq_of_key hk (mem_rows_of_mem_messages hm) hid]

theorem mem_childrenOf {messages : List Message} {p : Option Uuid} {m : Message} :
    m ∈ childrenOf messages p ↔ m ∈ messages ∧ m.parentMessageId = p := by
  simp [childrenOf, List.mem_filter]

theorem firstAssistantChild_spec {children : List Message} {a : Message} (h : firstAssistantChild children = .some a) :
    a ∈ children ∧ a.role = .assistant := by
  have hrole := List.find?_some h
  simp only [beq_iff_eq] at hrole
  exact ⟨List.mem_of_find?_eq_some h, hrole⟩

theorem parentId_of_mem {m : Message} (hm : m ∈ conversationMessages db conversationId) :
    parentId db m.id = m.parentMessageId := by
  have hfind : db.messages.find? m.id = .some m := Table.find?_of_mem (mem_rows_of_mem_messages hm)
  rw [parentId, hfind, Option.bind_some]

theorem Forest.chain (w : Forest db conversationId) {m : Message} (hm : m ∈ conversationMessages db conversationId) :
    ∃ up, Chain (parentId db) m.id up :=
  w.rooted m (w.mem_messages.1 hm).1 (w.mem_messages.1 hm).2

theorem chain_child {m c : Message} {up : List Uuid} (hup : Chain (parentId db) m.id up)
    (hc : c ∈ childrenOf (conversationMessages db conversationId) (.some m.id)) : Chain (parentId db) c.id (c.id :: up) := by
  obtain ⟨hmem, hparent⟩ := mem_childrenOf.1 hc
  exact .child ((parentId_of_mem hmem).trans hparent) hup

theorem Forest.chain_subset (w : Forest db conversationId) {x : Uuid} {up : List Uuid}
    (h : Chain (parentId db) x up) : ∀ m ∈ conversationMessages db conversationId, m.id = x →
      ∀ y ∈ up, y ∈ (conversationMessages db conversationId).map fun m => m.id := by
  induction h with
  | root hx =>
    rintro m hm rfl y hy
    obtain rfl := List.mem_singleton.1 hy
    exact List.mem_map.2 ⟨m, hm, rfl⟩
  | child hx _ ih =>
    rintro m hm rfl y hy
    rcases List.mem_cons.1 hy with rfl | hy
    · exact List.mem_map.2 ⟨m, hm, rfl⟩
    · rw [parentId_of_mem hm] at hx
      obtain ⟨hrow, hc⟩ := w.mem_messages.1 hm
      obtain ⟨q, hq, hid, hqc, -⟩ := w.edge m hrow hc _ hx
      exact ih q (w.mem_messages.2 ⟨hq, hqc⟩) hid y hy

theorem Forest.chain_length_le (w : Forest db conversationId) {m : Message} {up : List Uuid}
    (hm : m ∈ conversationMessages db conversationId) (h : Chain (parentId db) m.id up) :
    up.length ≤ (conversationMessages db conversationId).length := by
  have hlength := h.length_le (w.chain_subset h m hm rfl)
  rwa [List.length_map] at hlength

/-! ## Paths -/

theorem validateSteps_append {l ms : List Message} {root q : Message} :
    validateSteps root (l ++ q :: ms) = .ok () ↔ validateSteps root (l ++ [q]) = .ok () ∧ validateSteps q ms = .ok () := by
  induction l generalizing root with
  | nil => simp only [List.nil_append, validateSteps, invalidPath, refuse, check_eq_ok, and_true, and_assoc]
  | cons k l ih => simp only [List.cons_append, validateSteps, invalidPath, refuse, check_eq_ok, ih, and_assoc]

theorem validateSteps_single {q m : Message} (hp : m.parentMessageId = .some q.id) (halt : alternates q.role m.role = true) :
    validateSteps q [m] = .ok () := by
  cases hq : q.role <;> cases hm : m.role <;> simp [alternates, hq, hm] at halt <;> simp [validateSteps, hp, hq, hm]

theorem validateMessagePath_concat {l : List Message} {q m : Message} (h : validateMessagePath (l ++ [q]) = .ok ())
    (hp : m.parentMessageId = .some q.id) (halt : alternates q.role m.role = true) :
    validateMessagePath (l ++ [q, m]) = .ok () := by
  have hlast := validateSteps_single hp halt
  cases l with
  | nil =>
    simp only [List.nil_append, validateMessagePath, invalidPath, refuse, check_eq_ok] at h ⊢
    exact ⟨h.1, hlast⟩
  | cons root l =>
    simp only [List.cons_append, validateMessagePath, invalidPath, refuse, check_eq_ok] at h ⊢
    exact ⟨h.1, validateSteps_append.2 ⟨h.2, hlast⟩⟩

/-- **The path of a message loads**: the walk up its chain, which is valid. -/
theorem Forest.pathUp (w : Forest db conversationId) {x : Uuid} {up : List Uuid} (h : Chain (parentId db) x up) :
    ∀ m ∈ conversationMessages db conversationId, m.id = x → ∀ fuel seen, up.length ≤ fuel → (∀ y ∈ up, y ∉ seen) →
      ∃ rest, Conversations.pathUp (conversationMessages db conversationId) conversationId fuel seen m = .ok (m :: rest) ∧
        (m :: rest).map (fun k => k.id) = up ∧ (∀ k ∈ m :: rest, k ∈ conversationMessages db conversationId) ∧
        validateMessagePath (m :: rest).reverse = .ok () := by
  induction h with
  | root hx =>
    rintro m hm rfl (_ | fuel) seen hfuel hseen
    · simp at hfuel
    · obtain ⟨hrow, hc⟩ := w.mem_messages.1 hm
      rw [parentId_of_mem hm] at hx
      have hnew := hseen m.id List.mem_cons_self
      exact ⟨[], by simp [Conversations.pathUp, hc, hnew, hx], rfl, by simpa using hm,
        by simp [validateMessagePath, validateSteps, w.root m hrow hc hx, hx]⟩
  | @child x y up hx htail ih =>
    rintro m hm rfl (_ | fuel) seen hfuel hseen
    · simp at hfuel
    · obtain ⟨hrow, hc⟩ := w.mem_messages.1 hm
      rw [parentId_of_mem hm] at hx
      obtain ⟨q, hq, hid, hqc, halt⟩ := w.edge m hrow hc _ hx
      have hqm := w.mem_messages.2 ⟨hq, hqc⟩
      have hnew := hseen m.id List.mem_cons_self
      have hnodup := (Chain.child ((parentId_of_mem hm).trans hx) htail).nodup
      have hseen' : ∀ z ∈ up, z ∉ m.id :: seen := by
        intro z hz
        rw [List.mem_cons, not_or]
        exact ⟨fun heq => (List.nodup_cons.1 hnodup).1 (heq ▸ hz), hseen z (List.mem_cons_of_mem _ hz)⟩
      obtain ⟨rest, hrun, hids, hmem, hvalid⟩ := ih q hqm hid fuel (m.id :: seen) (by simpa using hfuel) hseen'
      refine ⟨q :: rest, ?_, by rw [List.map_cons, hids], ?_, ?_⟩
      · have hfind := messageById_of_mem hqm
        rw [hid] at hfind
        simp only [Conversations.pathUp, hc, hnew, hx, hfind, hrun, ne_eq, not_true_eq_false, or_self, if_false]
        rfl
      · intro k hk
        rcases List.mem_cons.1 hk with rfl | hk
        · exact hm
        · exact hmem k hk
      · rw [List.reverse_cons, List.reverse_cons] at *
        rw [List.append_assoc]
        exact validateMessagePath_concat hvalid (by rw [hx, hid]) halt

/-- **Every message has its path.** -/
theorem Forest.messagePath (w : Forest db conversationId) {m : Message} {up : List Uuid}
    (hm : m ∈ conversationMessages db conversationId) (h : Chain (parentId db) m.id up) :
    ∃ path, Conversations.messagePath (conversationMessages db conversationId) conversationId m.id = .ok path ∧
      path.map (fun k => k.id) = up.reverse ∧ ∀ k ∈ path, k ∈ conversationMessages db conversationId := by
  have hfuel := w.chain_length_le hm h
  obtain ⟨rest, hrun, hids, hmem, hvalid⟩ := w.pathUp h m hm rfl
    ((conversationMessages db conversationId).length + 1) [] (by omega) (by simp)
  refine ⟨(m :: rest).reverse, ?_, by rw [List.map_reverse, hids], fun k hk => hmem k (List.mem_reverse.1 hk)⟩
  unfold Conversations.messagePath
  rw [messageById_of_mem hm]
  simp only [bind_eq_ok]
  exact ⟨_, hrun, (), hvalid, rfl⟩

/-! ## Subtrees and the graph -/

/-- What `_subtree_metadata` says of a childless message. -/
def LeavesSound (messages : List Message) (metadata : SubtreeMetadata) : Prop :=
  ∀ e ∈ metadata, childrenOf messages (.some e.1) = [] → e.2.1 = e.1

theorem LeavesSound.get {messages : List Message} {metadata : SubtreeMetadata} (h : LeavesSound messages metadata) {id : Uuid}
    (hleaf : childrenOf messages (.some id) = []) : ((metadata.get id).map fun e => e.1).getD id = id := by
  unfold SubtreeMetadata.get
  induction metadata with
  | nil => rfl
  | cons e metadata ih =>
    obtain ⟨k, leaf, n⟩ := e
    rw [List.lookup_cons]
    cases hk : id == k with
    | true =>
      obtain rfl := beq_iff_eq.1 hk
      exact h _ List.mem_cons_self hleaf
    | false => exact ih fun e he => h e (List.mem_cons_of_mem _ he)

/-- **`record_subtree` returns**: it never comes back to a message it is in. -/
theorem WellFormed.recordSubtree (w : WellFormed db conversationId) : ∀ {fuel : Nat} {m : Message} {visiting : List Uuid}
    {metadata : SubtreeMetadata}, m ∈ conversationMessages db conversationId → Chain (parentId db) m.id (m.id :: visiting) →
    (conversationMessages db conversationId).length + 1 ≤ fuel + visiting.length →
    LeavesSound (conversationMessages db conversationId) metadata →
    ∃ r, Conversations.recordSubtree (conversationMessages db conversationId) fuel visiting m metadata = .ok r ∧
      LeavesSound (conversationMessages db conversationId) r.1
  | 0, m, visiting, metadata, hm, hchain, hfuel, _ => by
    have hlength := w.forest.chain_length_le hm hchain
    rw [List.length_cons] at hlength
    omega
  | fuel + 1, m, visiting, metadata, hm, hchain, hfuel, hsound => by
    have hnew := (List.nodup_cons.1 hchain.nodup).1
    unfold Conversations.recordSubtree
    rw [if_neg hnew]
    cases hchildren : childrenOf (conversationMessages db conversationId) (.some m.id) with
    | nil =>
      refine ⟨_, rfl, fun e he hleaf => ?_⟩
      rcases List.mem_cons.1 he with rfl | he
      · rfl
      · exact hsound e he hleaf
    | cons first rest =>
      simp only
      have hstart : LeavesSound (conversationMessages db conversationId) (metadata, first.id, 1).1 := hsound
      have hround : ∀ c ∈ first :: rest, ∀ r : SubtreeMetadata × Uuid × Nat,
          LeavesSound (conversationMessages db conversationId) r.1 → ∃ r',
            Conversations.recordSubtree (conversationMessages db conversationId) fuel (m.id :: visiting) c r.1 = .ok r' ∧
              LeavesSound (conversationMessages db conversationId) r'.1 := by
        intro c hc r hr
        rw [← hchildren] at hc
        have hfuel' : (conversationMessages db conversationId).length + 1 ≤ fuel + (m.id :: visiting).length := by
          rw [List.length_cons]
          omega
        exact w.recordSubtree (mem_childrenOf.1 hc).1 (chain_child hchain hc) hfuel' hr
      refine exists_bind (exists_foldlM (I := fun r => LeavesSound (conversationMessages db conversationId) r.1)
        (fun c hc r hr => ?_) hstart) ?_
      · exact exists_bind (hround c hc r hr) fun r' hr' => ⟨_, rfl, hr'⟩
      · rintro ⟨metadata', leafId, count⟩ hsound'
        refine ⟨_, rfl, fun e he hleaf => ?_⟩
        rcases List.mem_cons.1 he with rfl | he
        · rw [hchildren] at hleaf
          cases hleaf
        · exact hsound' e he hleaf

theorem Forest.exists_root (w : Forest db conversationId) {x : Uuid} {up : List Uuid}
    (h : Chain (parentId db) x up) : ∀ m ∈ conversationMessages db conversationId, m.id = x →
      childrenOf (conversationMessages db conversationId) .none ≠ [] := by
  induction h with
  | root hx =>
    rintro m hm rfl
    rw [parentId_of_mem hm] at hx
    exact List.ne_nil_of_mem (mem_childrenOf.2 ⟨hm, hx⟩)
  | child hx _ ih =>
    rintro m hm rfl
    rw [parentId_of_mem hm] at hx
    obtain ⟨hrow, hc⟩ := w.mem_messages.1 hm
    obtain ⟨q, hq, hid, hqc, -⟩ := w.edge m hrow hc _ hx
    exact ih q (w.mem_messages.2 ⟨hq, hqc⟩) hid

theorem Forest.mem_subtreeRoots (w : Forest db conversationId) {m : Message}
    (hm : m ∈ subtreeRoots (conversationMessages db conversationId)) :
    m ∈ conversationMessages db conversationId ∧ m.parentMessageId = .none := by
  unfold subtreeRoots at hm
  split at hm
  next hempty =>
    have hmem := List.mem_of_mem_take hm
    obtain ⟨up, hup⟩ := w.chain hmem
    exact absurd (List.isEmpty_iff.1 hempty) (w.exists_root hup m hmem rfl)
  next => exact mem_childrenOf.1 hm

theorem WellFormed.subtreeMetadata (w : WellFormed db conversationId) :
    ∃ metadata, Conversations.subtreeMetadata (conversationMessages db conversationId)
      (subtreeRoots (conversationMessages db conversationId)) = .ok metadata ∧
        LeavesSound (conversationMessages db conversationId) metadata := by
  refine exists_foldlM (fun root hroot metadata hsound => ?_) fun e he => by cases he
  split
  · exact ⟨metadata, rfl, hsound⟩
  · obtain ⟨hmem, hparent⟩ := w.forest.mem_subtreeRoots hroot
    have hchain : Chain (parentId db) root.id [root.id] := .root ((parentId_of_mem hmem).trans hparent)
    obtain ⟨r, hrun, hsound'⟩ := w.recordSubtree hmem hchain (le_refl _) hsound
    exact ⟨r.1, by rw [hrun]; rfl, hsound'⟩

theorem Forest.forkStatus (w : Forest db conversationId) {assistant : Option Message}
    (h : ∀ a ∈ assistant, a ∈ conversationMessages db conversationId) :
    ∃ status, Conversations.forkStatus db assistant = .ok status := by
  cases assistant with
  | none => exact ⟨_, rfl⟩
  | some a =>
    unfold Conversations.forkStatus
    simp only
    split
    · exact ⟨_, rfl⟩
    next hrun =>
      cases hstatus : a.status with
      | cancelled => exact absurd (w.cancelled a (mem_rows_of_mem_messages (h a rfl)) hstatus) hrun
      | pending | error | complete => exact ⟨_, rfl⟩

theorem firstAssistantChild_mem {p : Option Uuid} {a : Message}
    (h : a ∈ firstAssistantChild (childrenOf (conversationMessages db conversationId) p)) :
    a ∈ conversationMessages db conversationId := (mem_childrenOf.1 (firstAssistantChild_spec h).1).1

/-- A childless node of the graph is its own leaf. -/
def NodesSound (messages : List Message) (g : GraphState) : Prop :=
  ∀ n ∈ g.nodes, n.leaf = true → ∃ m ∈ messages, n.leafMessageId = m.id ∧ childrenOf messages (.some m.id) = []

/-- **`visit` returns**, and childless nodes are their own leaves. -/
theorem WellFormed.visit (w : WellFormed db conversationId) {metadata : SubtreeMetadata} {active : List Uuid}
    (hsound : LeavesSound (conversationMessages db conversationId) metadata) : ∀ {fuel : Nat} {m : Message} {depth : Nat}
    {above : List Uuid} {g : GraphState}, m ∈ conversationMessages db conversationId →
    Chain (parentId db) m.id (m.id :: above) → (conversationMessages db conversationId).length + 1 ≤ fuel + above.length →
    NodesSound (conversationMessages db conversationId) g →
    ∃ g', Conversations.visit db conversationId (conversationMessages db conversationId) metadata active fuel m depth g =
      .ok g' ∧ NodesSound (conversationMessages db conversationId) g'
  | 0, m, _, above, g, hm, hchain, hfuel, _ => by
    have hlength := w.forest.chain_length_le hm hchain
    rw [List.length_cons] at hlength
    omega
  | fuel + 1, m, depth, above, g, hm, hchain, hfuel, hnodes => by
    unfold Conversations.visit
    split
    · exact ⟨g, rfl, hnodes⟩
    · have hstatus : ∃ status, graphNodeStatus db m
          (childrenOf (conversationMessages db conversationId) (.some m.id)) = .ok status := by
        unfold graphNodeStatus
        split
        · exact w.forest.forkStatus fun a ha => by cases ha; exact hm
        · exact w.forest.forkStatus fun a => firstAssistantChild_mem
      obtain ⟨status, hstatus⟩ := hstatus
      simp only [hstatus, bind, Except.bind]
      refine exists_foldlM (fun c hc g hg => ?_) ?_
      · have hfuel' : (conversationMessages db conversationId).length + 1 ≤ fuel + (m.id :: above).length := by
          rw [List.length_cons]
          omega
        exact w.visit hsound (mem_childrenOf.1 hc).1 (chain_child hchain hc) hfuel' hg
      · intro n hn hleaf
        rcases List.mem_append.1 hn with hn | hn
        · exact hnodes n hn hleaf
        · obtain rfl := List.mem_singleton.1 hn
          have hchildless := List.isEmpty_iff.1 hleaf
          exact ⟨m, hm, hsound.get hchildless, hchildless⟩

theorem WellFormed.buildBranchGraph (w : WellFormed db conversationId) (active : List Uuid) :
    ∃ graph, Conversations.buildBranchGraph db conversationId active (conversationMessages db conversationId) = .ok graph ∧
      ∀ n ∈ graph.nodes, n.leaf = true → ∃ m ∈ conversationMessages db conversationId,
        n.leafMessageId = m.id ∧ childrenOf (conversationMessages db conversationId) (.some m.id) = [] := by
  obtain ⟨metadata, hmetadata, hsound⟩ := w.subtreeMetadata
  cases hmessages : conversationMessages db conversationId with
  | nil => exact ⟨_, rfl, fun n hn => by cases hn⟩
  | cons first rest =>
    rw [hmessages] at hmetadata
    have hvisits : ∃ g, (childrenOf (first :: rest) .none ++ first :: rest).foldlM
        (fun g m => Conversations.visit db conversationId (first :: rest) metadata active ((first :: rest).length + 1) m 0 g)
        ⟨[], [], []⟩ = .ok g ∧ NodesSound (first :: rest) g := by
      rw [← hmessages]
      refine exists_foldlM (fun m hm g hg => ?_) fun n hn => by cases hn
      have hmem : m ∈ conversationMessages db conversationId := by
        rcases List.mem_append.1 hm with hm | hm
        · exact (mem_childrenOf.1 hm).1
        · exact hm
      obtain ⟨up, hup⟩ := w.forest.chain hmem
      obtain ⟨above, rfl⟩ := hup.eq_cons
      exact w.visit hsound hmem hup (by omega) hg
    obtain ⟨g, hrun, hnodes⟩ := hvisits
    refine ⟨⟨g.nodes, g.edges, .some (((childrenOf (first :: rest) .none).head?.map fun m => m.id).getD first.id)⟩, ?_, hnodes⟩
    unfold Conversations.buildBranchGraph
    simp only [bind_eq_ok]
    exact ⟨metadata, hmetadata, g, hrun, rfl⟩

/-! ## The tree -/

/-- The option offers a branch of the conversation under its first answer. -/
def OffersFork (db : BranchDb) (conversationId : Uuid) (o : ForkOptionOut) : Prop :=
  ∃ u ∈ conversationMessages db conversationId, u.role = .user ∧ u.parentMessageId.isSome = true ∧ o.userMessageId = u.id ∧
    o.leafMessageId = ((firstAssistantChild (childrenOf (conversationMessages db conversationId) (.some u.id))).map
      fun m => m.id).getD u.id

theorem WellFormed.forkOptionsByParent (w : WellFormed db conversationId) (parentIds active : List Uuid) :
    ∃ options, Conversations.forkOptionsByParent db conversationId parentIds active (conversationMessages db conversationId) =
      .ok options ∧ ∀ p ∈ options, ∀ o ∈ p.2, OffersFork db conversationId o := by
  obtain ⟨metadata, hmetadata, -⟩ := w.subtreeMetadata
  unfold Conversations.forkOptionsByParent
  split
  · exact ⟨[], rfl, fun p hp => by cases hp⟩
  · -- each user child of a parent has its branch and an answer that can be shown
    have hoption : ∀ parentId, ∀ u ∈ (childrenOf (conversationMessages db conversationId) (.some parentId)).filter
        (fun m => m.role == .user), ∃ o, forkOptionFromLoaded db conversationId parentId
          (conversationMessages db conversationId) metadata active u = .ok o ∧ OffersFork db conversationId o := by
      intro parentId u hu
      obtain ⟨hchild, hrole⟩ := List.mem_filter.1 hu
      obtain ⟨hmem, hparent⟩ := mem_childrenOf.1 hchild
      have hrole := beq_iff_eq.1 hrole
      have hsome : u.parentMessageId.isSome = true := by rw [hparent]; rfl
      obtain ⟨hrow, hc⟩ := w.forest.mem_messages.1 hmem
      obtain ⟨b, hb⟩ := Option.isSome_iff_exists.1 (w.branch u hrow hc hrole hsome)
      obtain ⟨status, hstatus⟩ := w.forest.forkStatus fun a (ha : a ∈ firstAssistantChild (childrenOf
        (conversationMessages db conversationId) (.some u.id))) => firstAssistantChild_mem ha
      refine ⟨forkOption b parentId u (firstAssistantChild (childrenOf (conversationMessages db conversationId) (.some u.id)))
        status (((metadata.get u.id).map fun e => e.2).getD 1) active, ?_, u, hmem, hrole, hsome, rfl, rfl⟩
      unfold forkOptionFromLoaded
      simp only [hb, bind_eq_ok]
      exact ⟨status, hstatus, rfl⟩
    have hparents : ∀ parentId ∈ parentIds, ∃ p : Uuid × List ForkOptionOut, (do
          let users := (childrenOf (conversationMessages db conversationId) (.some parentId)).filter
            fun (m : Message) => m.role == MessageRole.user
          let options ← users.mapM (forkOptionFromLoaded db conversationId parentId
            (conversationMessages db conversationId) metadata active)
          Except.ok (parentId, options)) = .ok p := by
      intro parentId _
      obtain ⟨options, hrun⟩ := exists_mapM fun u hu => (hoption parentId u hu).imp fun _ h => h.1
      exact ⟨_, by simp only [bind_eq_ok]; exact ⟨options, hrun, rfl⟩⟩
    obtain ⟨options, hrun⟩ := exists_mapM hparents
    refine ⟨options, by rw [bind_eq_ok]; exact ⟨metadata, hmetadata, hrun⟩, fun p hp o ho => ?_⟩
    obtain ⟨parentId, -, hp⟩ := exists_of_forall₂ (mapM_eq_ok.1 hrun) hp
    obtain ⟨parentOptions, hoptions, heq⟩ := bind_eq_ok.1 hp
    cases heq
    obtain ⟨u, hu, ho⟩ := exists_of_forall₂ (mapM_eq_ok.1 hoptions) ho
    obtain ⟨o', ho', hoffers⟩ := hoption parentId u hu
    obtain rfl := Except.ok.inj (ho.symm.trans ho')
    exact hoffers

/-- A leaf the path cache may be asked for. -/
def CachedLeaf (db : BranchDb) (conversationId leafId : Uuid) (options : List (Uuid × List ForkOptionOut)) : Prop :=
  (∃ m ∈ conversationMessages db conversationId,
    leafId = m.id ∧ childrenOf (conversationMessages db conversationId) (.some m.id) = []) ∨
    ∃ p ∈ options, ∃ o ∈ p.2, leafId = o.leafMessageId

theorem OffersFork.mem_messages {o : ForkOptionOut} (h : OffersFork db conversationId o) :
    ∃ m ∈ conversationMessages db conversationId, m.id = o.leafMessageId := by
  obtain ⟨u, hu, -, -, -, hleaf⟩ := h
  rw [hleaf]
  cases ha : firstAssistantChild (childrenOf (conversationMessages db conversationId) (.some u.id)) with
  | none => exact ⟨u, hu, rfl⟩
  | some a => exact ⟨a, firstAssistantChild_mem ha, rfl⟩

theorem WellFormed.exists_messagePath (w : WellFormed db conversationId) {m : Message}
    (hm : m ∈ conversationMessages db conversationId) :
    ∃ path, Conversations.messagePath (conversationMessages db conversationId) conversationId m.id = .ok path := by
  obtain ⟨up, hup⟩ := w.forest.chain hm
  obtain ⟨path, hpath, -⟩ := w.forest.messagePath hm hup
  exact ⟨path, hpath⟩

theorem mem_of_messageById {messages : List Message} {id : Uuid} {m : Message} (h : messageById messages id = .some m) :
    m ∈ messages ∧ m.id = id := by
  have hid := List.find?_some h
  simp only [beq_iff_eq] at hid
  exact ⟨List.mem_of_find?_eq_some h, hid⟩

theorem activeLeafFromLoaded_mem {leafId : Uuid}
    (h : activeLeafFromLoaded db viewerId conversationId (conversationMessages db conversationId) = .some leafId) :
    ∃ m ∈ conversationMessages db conversationId, m.id = leafId := by
  have hlast : (conversationMessages db conversationId).getLast?.map (fun m => m.id) = .some leafId →
      ∃ m ∈ conversationMessages db conversationId, m.id = leafId := by
    intro h
    obtain ⟨m, hm, hid⟩ := Option.map_eq_some_iff.1 h
    exact ⟨m, List.mem_of_getLast? hm, hid⟩
  unfold activeLeafFromLoaded at h
  split at h
  · split at h
    next hsome =>
      obtain ⟨m, hm⟩ := Option.isSome_iff_exists.1 hsome
      cases h
      exact ⟨m, mem_of_messageById hm⟩
    next => exact hlast h
  · exact hlast h

/-- **The tree of a well-formed conversation**, for every viewer who can read it. -/
theorem WellFormed.exists_tree (w : WellFormed db conversationId) (hread : db.canRead viewerId conversationId = true) :
    ∃ tree, getConversationTree db viewerId conversationId = .ok tree ∧
      (∀ leafId, activeLeafFromLoaded db viewerId conversationId (conversationMessages db conversationId) = .some leafId →
        Conversations.messagePath (conversationMessages db conversationId) conversationId leafId = .ok tree.selectedPath) ∧
      (∀ p ∈ tree.forkOptionsByParentId, ∀ o ∈ p.2, OffersFork db conversationId o) ∧
      ∀ e ∈ tree.pathCacheByLeafId, CachedLeaf db conversationId e.1 tree.forkOptionsByParentId := by
  have hselected : ∃ path,
      (activeLeafFromLoaded db viewerId conversationId (conversationMessages db conversationId) = .none → path = []) ∧
        ∀ leafId, activeLeafFromLoaded db viewerId conversationId (conversationMessages db conversationId) = .some leafId →
          Conversations.messagePath (conversationMessages db conversationId) conversationId leafId = .ok path := by
    cases hleaf : activeLeafFromLoaded db viewerId conversationId (conversationMessages db conversationId) with
    | none => exact ⟨[], fun _ => rfl, fun _ h => by cases h⟩
    | some leafId =>
      obtain ⟨m, hm, rfl⟩ := activeLeafFromLoaded_mem hleaf
      obtain ⟨path, hpath⟩ := w.exists_messagePath hm
      refine ⟨path, fun h => (by cases h), fun _ h => ?_⟩
      cases h
      exact hpath
  obtain ⟨path, hunset, hset⟩ := hselected
  obtain ⟨options, hoptions, hoffers⟩ := w.forkOptionsByParent
    ((path.filter fun m => m.role == .assistant).map fun m => m.id) (path.map fun m => m.id)
  obtain ⟨graph, hgraph, hnodes⟩ := w.buildBranchGraph (path.map fun m => m.id)
  have hoffers' : ∀ p ∈ options.filter (fun p => decide (1 < p.2.length)), ∀ o ∈ p.2, OffersFork db conversationId o :=
    fun p hp => hoffers p (List.mem_filter.1 hp).1
  have hcached : ∀ leafId ∈ cachedLeafIds graph (options.filter fun p => decide (1 < p.2.length)),
      CachedLeaf db conversationId leafId (options.filter fun p => decide (1 < p.2.length)) := by
    intro leafId hleaf
    rcases List.mem_append.1 (List.mem_dedup.1 hleaf) with hleaf | hleaf
    · obtain ⟨n, hn, rfl⟩ := List.mem_map.1 hleaf
      obtain ⟨hn, hnleaf⟩ := List.mem_filter.1 hn
      exact .inl (hnodes n hn hnleaf)
    · obtain ⟨p, hp, hleaf⟩ := List.mem_flatMap.1 hleaf
      obtain ⟨o, ho, rfl⟩ := List.mem_map.1 hleaf
      exact .inr ⟨p, hp, o, ho, rfl⟩
  have hpaths : ∀ leafId ∈ cachedLeafIds graph (options.filter fun p => decide (1 < p.2.length)), ∃ e : Uuid × List Message,
      (Conversations.messagePath (conversationMessages db conversationId) conversationId leafId).map (fun path => (leafId, path)) =
        .ok e := by
    intro leafId hleaf
    have hmem : ∃ m ∈ conversationMessages db conversationId, m.id = leafId := by
      rcases hcached leafId hleaf with ⟨m, hm, rfl, -⟩ | ⟨p, hp, o, ho, rfl⟩
      · exact ⟨m, hm, rfl⟩
      · exact (hoffers' p hp o ho).mem_messages
    obtain ⟨m, hm, rfl⟩ := hmem
    obtain ⟨path, hpath⟩ := w.exists_messagePath hm
    exact ⟨_, by rw [hpath]; rfl⟩
  obtain ⟨cache, hcache⟩ := exists_mapM hpaths
  refine ⟨⟨path, activeLeafFromLoaded db viewerId conversationId (conversationMessages db conversationId),
    options.filter fun p => decide (1 < p.2.length), cache, graph⟩, ?_, ?_, hoffers', fun e he => ?_⟩
  · unfold getConversationTree requireVisible
    simp only [hread, if_true, bind_eq_ok]
    refine ⟨(), trivial, path, ?_, options, hoptions, graph, hgraph, cache, hcache, rfl⟩
    split
    next hleaf => rw [hunset hleaf]
    next leafId hleaf => exact hset leafId hleaf
  · exact hset
  · obtain ⟨leafId, hleaf, hrun⟩ := exists_of_forall₂ (mapM_eq_ok.1 hcache) he
    obtain ⟨path, -, rfl⟩ := map_eq_ok.1 hrun
    exact hcached leafId hleaf

/-! ## Switching -/

theorem persistActiveLeaf_frame (db : BranchDb) (viewerId conversationId leafId : Uuid) :
    (persistActiveLeaf db viewerId conversationId leafId).messages = db.messages ∧
      (persistActiveLeaf db viewerId conversationId leafId).branches = db.branches ∧
      (persistActiveLeaf db viewerId conversationId leafId).runStatus = db.runStatus ∧
      (persistActiveLeaf db viewerId conversationId leafId).canRead = db.canRead := by
  unfold persistActiveLeaf
  cases hins : db.activePaths.insert? ⟨conversationId, viewerId, leafId⟩ <;> simp [hins]

theorem find?_persistActiveLeaf (leafId : Uuid) :
    (persistActiveLeaf db viewerId conversationId leafId).activePaths.find? (conversationId, viewerId) =
      .some ⟨conversationId, viewerId, leafId⟩ := by
  unfold persistActiveLeaf
  cases hins : db.activePaths.insert? ⟨conversationId, viewerId, leafId⟩ with
  | some activePaths =>
    simp only [hins]
    rw [Table.find?_insert? hins (conversationId, viewerId)]
    exact if_pos rfl
  | none =>
    simp only [hins]
    obtain ⟨p, hp⟩ := Table.insert?_eq_none.1 hins
    obtain ⟨hmem, hkey⟩ := Table.find?_eq_some.1 hp
    obtain ⟨hc, hv⟩ := Prod.mk.inj hkey
    have hfind : db.activePaths.find? (conversationId, viewerId) = .some p := hp
    refine (Table.find?_updateWhere (conversationId, viewerId)).trans ?_
    rw [hfind]
    cases p
    simp only at hc hv
    simp [hc, hv]

theorem WellFormed.persist (w : WellFormed db conversationId) (viewerId leafId : Uuid) :
    WellFormed (persistActiveLeaf db viewerId conversationId leafId) conversationId := by
  obtain ⟨hmessages, hbranches, hruns, -⟩ := persistActiveLeaf_frame db viewerId conversationId leafId
  constructor
  case rooted =>
    have hparent : parentId (persistActiveLeaf db viewerId conversationId leafId) = parentId db := by
      funext id
      rw [parentId, hmessages, parentId]
    rw [hmessages, hparent]
    exact w.rooted
  case root => rw [hmessages]; exact w.root
  case edge => rw [hmessages]; exact w.edge
  case branch =>
    rw [hmessages]
    intro m hm hc hrole hp
    rw [branchOf, hbranches]
    exact w.branch m hm hc hrole hp
  case branched => rw [hmessages, hbranches]; exact w.branched
  case cancelled => rw [hmessages, hruns]; exact w.cancelled

/-- **A message is accepted exactly when it has no child**, and then its path is
the selected one. -/
theorem WellFormed.setActivePath (w : WellFormed db conversationId) (hread : db.canRead viewerId conversationId = true)
    {m : Message} (hm : m ∈ conversationMessages db conversationId)
    (hleaf : childrenOf (conversationMessages db conversationId) (.some m.id) = []) :
    ∃ db' tree, Conversations.setActivePath db viewerId conversationId m.id = .ok (db', tree) ∧
      Conversations.messagePath (conversationMessages db conversationId) conversationId m.id = .ok tree.selectedPath := by
  obtain ⟨hmessages, -, -, hreads⟩ := persistActiveLeaf_frame db viewerId conversationId m.id
  have hsame : conversationMessages (persistActiveLeaf db viewerId conversationId m.id) conversationId =
      conversationMessages db conversationId := by
    rw [conversationMessages, hmessages, conversationMessages]
  obtain ⟨path, hpath⟩ := w.exists_messagePath hm
  have hread' : (persistActiveLeaf db viewerId conversationId m.id).canRead viewerId conversationId = true := by
    rw [hreads]
    exact hread
  obtain ⟨tree, htree, hselected, -⟩ := (w.persist viewerId m.id).exists_tree hread'
  have hactive : activeLeafFromLoaded (persistActiveLeaf db viewerId conversationId m.id) viewerId conversationId
      (conversationMessages (persistActiveLeaf db viewerId conversationId m.id) conversationId) = .some m.id := by
    unfold activeLeafFromLoaded
    rw [find?_persistActiveLeaf, hsame]
    simp only [messageById_of_mem hm, Option.isSome_some, if_true]
  have hnone : (db.messages.rows.any fun k => k.conversationId == conversationId && k.parentMessageId == .some m.id) = false := by
    rw [List.any_eq_false]
    intro k hk hboth
    rw [Bool.and_eq_true, beq_iff_eq, beq_iff_eq] at hboth
    have hchild := mem_childrenOf.2 ⟨w.forest.mem_messages.2 ⟨hk, hboth.1⟩, hboth.2⟩
    rw [hleaf] at hchild
    cases hchild
  refine ⟨persistActiveLeaf db viewerId conversationId m.id, tree, ?_, by rw [← hsame]; exact hselected m.id hactive⟩
  unfold Conversations.setActivePath requireVisible loadLeafMessagePath loadMessagePath
  simp only [hread, if_true, hnone, Bool.false_eq_true, if_false, bind_eq_ok]
  exact ⟨(), trivial, path, ⟨path, hpath, rfl⟩, tree, htree, rfl⟩

theorem setActivePath_childless {leafId : Uuid} {r} (h : setActivePath db viewerId conversationId leafId = .ok r) :
    childrenOf (conversationMessages db conversationId) (.some leafId) = [] := by
  unfold setActivePath loadLeafMessagePath at h
  obtain ⟨-, -, h⟩ := bind_eq_ok.1 h
  obtain ⟨_, hload, -⟩ := bind_eq_ok.1 h
  obtain ⟨_, -, hload⟩ := bind_eq_ok.1 hload
  obtain ⟨hnone, -⟩ := check_eq_ok.1 hload
  rw [List.eq_nil_iff_forall_not_mem]
  intro k hk
  obtain ⟨hmem, hparent⟩ := mem_childrenOf.1 hk
  obtain ⟨hrow, hkc⟩ := List.mem_filter.1 (List.mem_mergeSort.1 hmem)
  refine hnone (List.any_eq_true.2 ⟨k, hrow, ?_⟩)
  rw [Bool.and_eq_true] at hkc
  rw [Bool.and_eq_true, hparent]
  exact ⟨hkc.1, beq_self_eq_true _⟩

/-- A childless message of the conversation can be switched to, and every
message above it is then on the path. -/
theorem WellFormed.activates (w : WellFormed db conversationId) (hread : db.canRead viewerId conversationId = true)
    {m : Message} (hm : m ∈ conversationMessages db conversationId)
    (hleaf : childrenOf (conversationMessages db conversationId) (.some m.id) = []) {id : Uuid} {up : List Uuid}
    (hup : Chain (parentId db) m.id up) (hid : id ∈ up) : Activates db viewerId conversationId m.id id := by
  obtain ⟨db', tree, hset, hselected⟩ := w.setActivePath hread hm hleaf
  obtain ⟨path, hpath, hids, -⟩ := w.forest.messagePath hm hup
  obtain rfl := Except.ok.inj (hpath.symm.trans hselected)
  exact ⟨db', tree, hset, by rw [hids]; exact List.mem_reverse.2 hid⟩

theorem WellFormed.role_of_child (w : WellFormed db conversationId) {u c : Message} (hu : u ∈ db.messages.rows)
    (hrole : u.role = .user) (hc : c ∈ childrenOf (conversationMessages db conversationId) (.some u.id)) :
    c.role = .assistant := by
  obtain ⟨hmem, hparent⟩ := mem_childrenOf.1 hc
  obtain ⟨hrow, hcc⟩ := w.forest.mem_messages.1 hmem
  obtain ⟨q, hq, hid, -, halt⟩ := w.edge c hrow hcc _ hparent
  obtain rfl : q = u := Table.eq_of_key hq hu hid
  rw [hrole] at halt
  cases hcrole : c.role <;> rw [hcrole] at halt <;> first | rfl | cases halt

/-- **A fork's leaf is a leaf below its user message while its answer was not
continued.** -/
theorem WellFormed.fork_leaf (w : WellFormed db conversationId) (huncontinued : ForksUncontinued db conversationId)
    {o : ForkOptionOut} (h : OffersFork db conversationId o) :
    ∃ m ∈ conversationMessages db conversationId, o.leafMessageId = m.id ∧
      childrenOf (conversationMessages db conversationId) (.some m.id) = [] ∧
        ∃ up, Chain (parentId db) m.id up ∧ o.userMessageId ∈ up := by
  obtain ⟨u, hu, hrole, hsome, huser, hleaf⟩ := h
  obtain ⟨hrow, hc⟩ := w.forest.mem_messages.1 hu
  obtain ⟨up, hup⟩ := w.forest.chain hu
  rw [huser, hleaf]
  cases ha : firstAssistantChild (childrenOf (conversationMessages db conversationId) (.some u.id)) with
  | none =>
    refine ⟨u, hu, rfl, List.eq_nil_iff_forall_not_mem.2 fun c hchild => ?_, up, hup, hup.mem⟩
    have hnone := List.find?_eq_none.1 ha c hchild
    rw [w.role_of_child hrow hrole hchild] at hnone
    exact hnone rfl
  | some a =>
    have hchild := (firstAssistantChild_spec ha).1
    obtain ⟨b, hb⟩ := Option.isSome_iff_exists.1 (w.branch u hrow hc hrole hsome)
    obtain ⟨hfind, hbc⟩ := Option.filter_eq_some_iff.1 hb
    obtain ⟨hbmem, hbu⟩ := Table.find?_eq_some.1 hfind
    have hchildless := huncontinued b hbmem (beq_iff_eq.1 hbc) a (by rw [hbu]; exact ha)
    exact ⟨a, (mem_childrenOf.1 hchild).1, rfl, hchildless, _, chain_child hup hchild, List.mem_cons_of_mem _ hup.mem⟩

theorem WellFormed.activates_fork (w : WellFormed db conversationId) (hread : db.canRead viewerId conversationId = true)
    (huncontinued : ForksUncontinued db conversationId) {o : ForkOptionOut} (h : OffersFork db conversationId o) :
    Activates db viewerId conversationId o.leafMessageId o.userMessageId := by
  obtain ⟨m, hm, hleaf, hchildless, up, hup, huser⟩ := w.fork_leaf huncontinued h
  rw [hleaf]
  exact w.activates hread hm hchildless hup huser

/-! ## The list of forks -/

theorem WellFormed.sorted_rows (w : WellFormed db conversationId) :
    (db.messages.rows.filter fun m => m.conversationId == conversationId).mergeSort Message.le =
      conversationMessages db conversationId := by
  unfold conversationMessages
  congr 1
  refine List.filter_congr fun m hm => ?_
  cases hc : m.conversationId == conversationId with
  | false => rfl
  | true =>
    have hrole := w.forest.role_ne_system hm (beq_iff_eq.1 hc)
    simpa using hrole

theorem WellFormed.forkOptionForUserMessage (w : WellFormed db conversationId) {b : ConversationBranch} {active : List Uuid}
    (hb : b ∈ db.branches.rows) (hbc : b.conversationId = conversationId) :
    ∃ o, Conversations.forkOptionForUserMessage db b.branchUserMessageId active = .ok o ∧ OffersFork db conversationId o ∧
      o.userMessageId = b.branchUserMessageId := by
  obtain ⟨u, hu, hid, hc, hrole, hsome⟩ := w.branched b hb hbc
  have hfind : db.messages.find? b.branchUserMessageId = .some u := Table.find?_eq_some.2 ⟨hu, hid⟩
  have hbranch : branchOf db u.conversationId u.id = .some b := by
    rw [branchOf, hid, Table.find?_of_mem hb]
    simp [hbc, hc]
  obtain ⟨parentId, hparent⟩ := Option.isSome_iff_exists.1 hsome
  obtain ⟨status, hstatus⟩ := w.forest.forkStatus fun a (ha : a ∈ firstAssistantChild (childrenOf
    (conversationMessages db conversationId) (.some u.id))) => firstAssistantChild_mem ha
  refine ⟨forkOption b parentId u (firstAssistantChild (childrenOf (conversationMessages db conversationId) (.some u.id))) status
    (subtreeCount (conversationMessages db conversationId) (conversationMessages db conversationId).length [u]) active, ?_,
    ⟨u, w.forest.mem_messages.2 ⟨hu, hc⟩, hrole, hsome, rfl, rfl⟩, hid⟩
  unfold Conversations.forkOptionForUserMessage
  simp only [hfind, hparent, hbranch]
  rw [hc, w.sorted_rows]
  simp only [bind_eq_ok]
  exact ⟨status, hstatus, rfl⟩

theorem mem_forkRows {ilike : List Char → List Char → Bool} {search : Option (List Char)} {id : Uuid}
    (h : id ∈ forkRows ilike db conversationId search) :
    ∃ b ∈ db.branches.rows, b.conversationId = conversationId ∧ b.branchUserMessageId = id := by
  unfold forkRows at h
  obtain ⟨u, -, h⟩ := List.mem_flatMap.1 h
  split at h
  · cases h
  next b hb =>
    obtain ⟨-, -, rfl⟩ := List.mem_map.1 h
    obtain ⟨hfind, hbc⟩ := Option.filter_eq_some_iff.1 hb
    obtain ⟨hmem, hkey⟩ := Table.find?_eq_some.1 hfind
    exact ⟨b, hmem, beq_iff_eq.1 hbc, hkey⟩

theorem WellFormed.mem_forkRows_none (w : WellFormed db conversationId) {ilike : List Char → List Char → Bool}
    {b : ConversationBranch} (hb : b ∈ db.branches.rows) (hbc : b.conversationId = conversationId) :
    b.branchUserMessageId ∈ forkRows ilike db conversationId .none := by
  obtain ⟨u, hu, hid, -⟩ := w.branched b hb hbc
  unfold forkRows
  refine List.mem_flatMap.2 ⟨u, List.mem_mergeSort.2 hu, ?_⟩
  have hbranch : (db.branches.find? u.id).filter (fun b => b.conversationId == conversationId) = .some b := by
    rw [hid, Table.find?_of_mem hb]
    simp [hbc]
  simp only [hbranch, Option.map_none, Option.getD_none, List.isEmpty_nil, Bool.true_or, List.filter_true]
  refine List.mem_map.2 ?_
  split
  · exact ⟨_, List.mem_singleton.2 rfl, hid⟩
  next hne =>
    obtain ⟨a, ha⟩ := List.exists_mem_of_ne_nil _ fun hnil => hne (List.isEmpty_iff.2 hnil)
    exact ⟨_, List.mem_map.2 ⟨a, ha, rfl⟩, hid⟩

theorem WellFormed.activePathMessageIds (w : WellFormed db conversationId) (viewerId : Uuid) :
    ∃ ids, Conversations.activePathMessageIds db viewerId conversationId = .ok ids := by
  have hleaf : ∀ leafId, activeLeafForViewer db viewerId conversationId = .some leafId →
      ∃ m ∈ conversationMessages db conversationId, m.id = leafId := by
    intro leafId h
    unfold activeLeafForViewer at h
    simp only at h
    split at h
    next m hm =>
      cases h
      obtain ⟨hm, hc⟩ := Option.filter_eq_some_iff.1 hm
      obtain ⟨p, -, hfind⟩ := Option.bind_eq_some_iff.1 hm
      exact ⟨m, w.forest.mem_messages.2 ⟨(Table.find?_eq_some.1 hfind).1, beq_iff_eq.1 hc⟩, rfl⟩
    next =>
      obtain ⟨m, hm, hid⟩ := Option.map_eq_some_iff.1 h
      rw [w.sorted_rows] at hm
      exact ⟨m, List.mem_of_getLast? hm, hid⟩
  unfold Conversations.activePathMessageIds
  split
  · exact ⟨[], rfl⟩
  next leafId h =>
    obtain ⟨m, hm, rfl⟩ := hleaf leafId h
    obtain ⟨path, hpath⟩ := w.exists_messagePath hm
    exact ⟨_, by rw [loadMessagePath, hpath]; rfl⟩

theorem WellFormed.listForks (w : WellFormed db conversationId) (hread : db.canRead viewerId conversationId = true)
    (ilike : List Char → List Char → Bool) (search : Option (List Char)) :
    ∃ options, Conversations.listForks ilike db viewerId conversationId search = .ok options ∧
      (∀ o ∈ options, OffersFork db conversationId o) ∧
      ∀ id ∈ forkRows ilike db conversationId search, ∃ o ∈ options, o.userMessageId = id := by
  obtain ⟨active, hactive⟩ := w.activePathMessageIds viewerId
  have hoption : ∀ id ∈ forkRows ilike db conversationId search, ∃ o,
      Conversations.forkOptionForUserMessage db id active = .ok o ∧ OffersFork db conversationId o ∧ o.userMessageId = id := by
    intro id hid
    obtain ⟨b, hb, hbc, rfl⟩ := mem_forkRows hid
    exact w.forkOptionForUserMessage hb hbc
  obtain ⟨options, hrun⟩ := exists_mapM fun id hid => (hoption id hid).imp fun _ h => h.1
  have hall := mapM_eq_ok.1 hrun
  refine ⟨options, ?_, fun o ho => ?_, fun id hid => ?_⟩
  · unfold Conversations.listForks requireVisible
    simp only [hread, if_true, bind_eq_ok]
    exact ⟨(), trivial, active, hactive, hrun⟩
  · obtain ⟨id, hid, hone⟩ := exists_of_forall₂ hall ho
    obtain ⟨o', ho', hoffers, -⟩ := hoption id hid
    obtain rfl := Except.ok.inj (hone.symm.trans ho')
    exact hoffers
  · obtain ⟨o, ho, hone⟩ := exists_of_forall₂ hall.flip hid
    obtain ⟨o', ho', -, huser⟩ := hoption id hid
    obtain rfl := Except.ok.inj (hone.symm.trans ho')
    exact ⟨o, ho, huser⟩

/-! ## What is offered -/

/-- **Every leaf offered for switching can be switched to exactly when no
branch was continued after its first answer.** -/
theorem offers_activate_iff (w : WellFormed db conversationId) (hread : db.canRead viewerId conversationId = true)
    (ilike : List Char → List Char → Bool) :
    OffersActivate ilike db viewerId conversationId ↔ ForksUncontinued db conversationId := by
  constructor
  · intro h b hb hbc answer hanswer
    obtain ⟨options, hlist, hoffers, hlisted⟩ := w.listForks hread ilike .none
    obtain ⟨o, ho, huser⟩ := hlisted _ (w.mem_forkRows_none hb hbc)
    obtain ⟨u, hu, -, -, hou, hleaf⟩ := hoffers o ho
    rw [← hou, huser, hanswer] at hleaf
    obtain ⟨db', tree, hset, -⟩ := h.forks .none options hlist o ho
    rw [hleaf] at hset
    exact setActivePath_childless hset
  · intro h
    obtain ⟨tree, htree, -, hoptions, hcached⟩ := w.exists_tree hread
    constructor
    case cache =>
      intro tree' htree' e he
      obtain rfl := Except.ok.inj (htree.symm.trans htree')
      rcases hcached e he with ⟨m, hm, hid, hleaf⟩ | ⟨p, hp, o, ho, hid⟩
      · obtain ⟨up, hup⟩ := w.forest.chain hm
        rw [hid]
        exact w.activates hread hm hleaf hup hup.mem
      · obtain ⟨m, hm, hleaf, hchildless, up, hup, -⟩ := w.fork_leaf h (hoptions p hp o ho)
        rw [hid, hleaf]
        exact w.activates hread hm hchildless hup hup.mem
    case options =>
      intro tree' htree' p hp o ho
      obtain rfl := Except.ok.inj (htree.symm.trans htree')
      exact w.activates_fork hread h (hoptions p hp o ho)
    case forks =>
      intro search options hlist o ho
      obtain ⟨options', hlist', hoffers, -⟩ := w.listForks hread ilike search
      obtain rfl := Except.ok.inj (hlist.symm.trans hlist')
      exact w.activates_fork hread h (hoffers o ho)

end Facts

/-! ## Two forks -/

def message (id seq : Nat) (role : MessageRole) (parentMessageId : Option Uuid) : Message :=
  ⟨id, 100, seq, role, "text".toList, .complete, parentMessageId, .none, .none, 0⟩

def branch (userMessageId : Uuid) : ConversationBranch := ⟨userMessageId, 100, userMessageId, .none, 0, 0⟩

/-- A question answered, and two questions about the answer, each answered. -/
def twoForks : List Message :=
  [message 1 1 .user .none, message 2 2 .assistant (.some 1), message 3 3 .user (.some 2), message 4 4 .assistant (.some 3),
    message 5 5 .user (.some 2), message 6 6 .assistant (.some 5)]

/-- The same, and the first fork continued. -/
def continuedFork : List Message := twoForks ++ [message 7 7 .user (.some 4), message 8 8 .assistant (.some 7)]

def conversationDb (messages : List Message) (h : (messages.map fun m => m.id).Nodup) (branches : List ConversationBranch)
    (hb : (branches.map fun b => b.branchUserMessageId).Nodup) : BranchDb where
  messages := ⟨messages, h⟩
  branches := ⟨branches, hb⟩
  activePaths := .empty
  runStatus _ := .none
  canRead _ _ := true

def twoForksDb : BranchDb := conversationDb twoForks (by decide) [branch 3, branch 5] (by decide)

def continuedForkDb : BranchDb := conversationDb continuedFork (by decide) [branch 3, branch 5, branch 7] (by decide)

theorem wellFormed_of_checks {db : BranchDb}
    (hrooted : ∀ m ∈ db.messages.rows, (walk (parentId db) 10 m.id).isSome = true)
    (hroot : ∀ m ∈ db.messages.rows, m.parentMessageId = .none → m.role = .user)
    (hedge : ∀ m ∈ db.messages.rows, ∀ p ∈ m.parentMessageId, ∃ q ∈ db.messages.rows, q.id = p ∧ q.conversationId = 100 ∧
      alternates q.role m.role = true)
    (hbranch : ∀ m ∈ db.messages.rows, m.role = .user → m.parentMessageId.isSome = true → (branchOf db 100 m.id).isSome = true)
    (hbranched : ∀ b ∈ db.branches.rows, ∃ m ∈ db.messages.rows, m.id = b.branchUserMessageId ∧ m.conversationId = 100 ∧
      m.role = .user ∧ m.parentMessageId.isSome = true)
    (hcancelled : ∀ m ∈ db.messages.rows, m.status ≠ .cancelled) : WellFormed db 100 where
  rooted m hm _ := (Option.isSome_iff_exists.1 (hrooted m hm)).imp fun _ h => .of_walk h
  root m hm _ := hroot m hm
  edge m hm _ := hedge m hm
  branch m hm _ := hbranch m hm
  branched b hb _ := hbranched b hb
  cancelled m hm h := absurd h (hcancelled m hm)

theorem wellFormed_twoForks : WellFormed twoForksDb 100 := by
  apply wellFormed_of_checks <;> decide +kernel

theorem wellFormed_continuedFork : WellFormed continuedForkDb 100 := by
  apply wellFormed_of_checks <;> decide +kernel

theorem conversationMessages_twoForks : conversationMessages twoForksDb 100 = twoForks :=
  (List.mergeSort_of_pairwise (by decide +kernel)).trans (by decide +kernel)

theorem conversationMessages_continuedFork : conversationMessages continuedForkDb 100 = continuedFork :=
  (List.mergeSort_of_pairwise (by decide +kernel)).trans (by decide +kernel)

theorem uncontinued_twoForks : ForksUncontinued twoForksDb 100 := by
  have hall : ∀ b ∈ twoForksDb.branches.rows, ∀ a ∈ firstAssistantChild (childrenOf twoForks (.some b.branchUserMessageId)),
      childrenOf twoForks (.some a.id) = [] := by decide +kernel
  intro b hb _ answer
  rw [conversationMessages_twoForks]
  exact hall b hb answer

theorem offers_activate_twoForks :
    OffersActivate (fun content search => content.tails.any search.isPrefixOf) twoForksDb 9 100 :=
  (offers_activate_iff wellFormed_twoForks rfl _).2 uncontinued_twoForks

/-- The tree offers message 4 as the leaf of the first fork, which was continued. -/
theorem continued_fork_refused : WellFormed continuedForkDb 100 ∧
    (∃ tree, getConversationTree continuedForkDb 9 100 = .ok tree ∧
      ∃ p ∈ tree.forkOptionsByParentId, ∃ o ∈ p.2, o.userMessageId = 3 ∧ o.leafMessageId = 4) ∧
    ∀ r, setActivePath continuedForkDb 9 100 4 ≠ .ok r := by
  refine ⟨wellFormed_continuedFork, ?_, fun r hr => ?_⟩
  · have hoffered : (match getConversationTree continuedForkDb 9 100 with
        | .ok tree => decide (∃ p ∈ tree.forkOptionsByParentId, ∃ o ∈ p.2, o.userMessageId = 3 ∧ o.leafMessageId = 4)
        | .error _ => false) = true := by
      unfold getConversationTree
      rw [conversationMessages_continuedFork]
      decide +kernel
    split at hoffered
    next tree htree => exact ⟨tree, htree, of_decide_eq_true hoffered⟩
    next => cases hoffered
  · have hnone := setActivePath_childless hr
    rw [conversationMessages_continuedFork] at hnone
    revert hnone
    decide +kernel

end Nexus.Conversations
