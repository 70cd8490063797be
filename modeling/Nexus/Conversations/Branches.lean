/-
Branches and paths of a conversation: `services/conversation_branches.py`.

Messages are a forest by their parents. The tree response offers leaves to
switch to from three places: the childless nodes of the graph, the options of
the forks on the selected path, and the list of forks.

A message goes out as it is stored, and `chat_runs` is read by the assistant
message a run answers with. A walk of the forest takes at most one step for
each message, which is its fuel.
-/
import Nexus.Base
import Nexus.Lib.Table

namespace Nexus.Conversations
open Relational

/-! ## Rows -/

inductive MessageRole
  | user
  | assistant
  | system
  deriving DecidableEq, Repr

inductive MessageStatus
  | pending
  | complete
  | error
  | cancelled
  deriving DecidableEq, Repr

inductive ChatRunStatus
  | queued
  | running
  | complete
  | error
  | cancelled
  deriving DecidableEq, Repr

inductive BranchAnchorKind
  | none
  | assistantMessage
  | assistantSelection
  deriving DecidableEq, Repr

structure Message where
  id : Uuid
  conversationId : Uuid
  seq : Nat
  role : MessageRole
  content : List Char
  status : MessageStatus
  parentMessageId : Option Uuid
  branchAnchorKind : BranchAnchorKind
  /-- the `exact` of the anchor -/
  branchAnchorExact : Option (List Char)
  createdAt : Instant
  deriving DecidableEq, Repr

structure ConversationBranch where
  id : Uuid
  conversationId : Uuid
  branchUserMessageId : Uuid
  title : Option (List Char)
  createdAt : Instant
  updatedAt : Instant
  deriving DecidableEq, Repr

structure ConversationActivePath where
  conversationId : Uuid
  viewerUserId : Uuid
  activeLeafMessageId : Uuid
  deriving DecidableEq, Repr

def ConversationActivePath.key (p : ConversationActivePath) : Uuid × Uuid := (p.conversationId, p.viewerUserId)

structure BranchDb where
  messages : Table Message fun m => m.id
  /-- by `uix_conversation_branches_user_message` -/
  branches : Table ConversationBranch fun b => b.branchUserMessageId
  activePaths : Table ConversationActivePath ConversationActivePath.key
  runStatus : Uuid → Option ChatRunStatus
  /-- there is such a conversation and the viewer can read it -/
  canRead : Uuid → Uuid → Bool

def refuse {α : Type} (code : ApiErrorCode) (message : String) : Except Abort α := .error (.api ⟨code, message⟩)

def invalidPath {α : Type} (message : String) : Except Abort α := refuse .branchPathInvalid message

/-- `get_conversation_for_visible_read_or_404` -/
def requireVisible (db : BranchDb) (viewerId conversationId : Uuid) : Except Abort Unit :=
  if db.canRead viewerId conversationId then .ok () else refuse .conversationNotFound "Conversation not found"

/-! ## Messages -/

/-- `ORDER BY seq ASC, id ASC` -/
def Message.le (a b : Message) : Bool := ((compare a.seq b.seq).then (compare a.id b.id)).isLE

def conversationMessages (db : BranchDb) (conversationId : Uuid) : List Message :=
  (db.messages.rows.filter fun m => m.conversationId == conversationId && m.role != .system).mergeSort Message.le

/-- `messages_by_id.get` -/
def messageById (messages : List Message) (id : Uuid) : Option Message := messages.find? fun m => m.id == id

/-- `children_by_parent_id.get(parent_id, [])` -/
def childrenOf (messages : List Message) (parentId : Option Uuid) : List Message :=
  messages.filter fun m => m.parentMessageId == parentId

def firstAssistantChild (children : List Message) : Option Message := children.find? fun m => m.role == .assistant

/-- `" ".join(content.split())[:160]` -/
def preview (content : List Char) : List Char :=
  (List.intercalate [' '] ((content.splitOnP isPythonSpace).filter fun word => !word.isEmpty)).take 160

def branchAnchorPreview (m : Message) : Option (List Char) :=
  if m.branchAnchorKind = .assistantSelection then
    (m.branchAnchorExact.filter fun exact => !(pythonStrip exact).isEmpty).map preview
  else .none

/-! ## Paths -/

/-- The loop of `_message_path_from_loaded`, from a message up to its root. -/
def pathUp (messages : List Message) (conversationId : Uuid) : Nat → List Uuid → Message → Except Abort (List Message)
  | 0, _, _ => .error .defect
  | fuel + 1, seen, message =>
    if message.conversationId ≠ conversationId ∨ message.id ∈ seen then invalidPath "Invalid conversation path"
    else match message.parentMessageId with
      | .none => .ok [message]
      | .some parentId => match messageById messages parentId with
        | .none => invalidPath "Invalid conversation path"
        | .some parent => (pathUp messages conversationId fuel (message.id :: seen) parent).map (message :: ·)

/-- The rounds of `_validate_message_path` after the root's. -/
def validateSteps (parent : Message) : List Message → Except Abort Unit
  | [] => .ok ()
  | message :: path =>
    if message.role = .system then invalidPath "Invalid message role in path"
    else if message.parentMessageId ≠ .some parent.id then invalidPath "Invalid parent chain"
    else if message.role = .user ∧ parent.role ≠ .assistant then
      invalidPath "User messages must follow assistant messages"
    else if message.role = .assistant ∧ parent.role ≠ .user then
      invalidPath "Assistant messages must follow user messages"
    else validateSteps message path

def validateMessagePath : List Message → Except Abort Unit
  | [] => invalidPath "Invalid conversation path"
  | root :: path =>
    if root.role ≠ .user ∨ root.parentMessageId.isSome then
      invalidPath "Conversation paths must start with a root user message"
    else validateSteps root path

/-- `_message_path_from_loaded` -/
def messagePath (messages : List Message) (conversationId leafMessageId : Uuid) : Except Abort (List Message) :=
  match messageById messages leafMessageId with
  | .none => invalidPath "Invalid conversation path"
  | .some leaf => do
    let up ← pathUp messages conversationId (messages.length + 1) [] leaf
    validateMessagePath up.reverse
    .ok up.reverse

def loadMessagePath (db : BranchDb) (conversationId leafMessageId : Uuid) : Except Abort (List Message) :=
  messagePath (conversationMessages db conversationId) conversationId leafMessageId

/-- `load_leaf_message_path`: a message of any role is a child. -/
def loadLeafMessagePath (db : BranchDb) (conversationId leafMessageId : Uuid) : Except Abort (List Message) := do
  let path ← loadMessagePath db conversationId leafMessageId
  if db.messages.rows.any fun m => m.conversationId == conversationId && m.parentMessageId == .some leafMessageId then
    invalidPath "active_leaf_message_id must be a leaf"
  else .ok path

/-! ## Subtrees -/

/-- The dicts of `_subtree_metadata`, the latest entry first: a message's last
leaf and the messages below it. -/
abbrev SubtreeMetadata := List (Uuid × Uuid × Nat)

def SubtreeMetadata.get (metadata : SubtreeMetadata) (id : Uuid) : Option (Uuid × Nat) := metadata.lookup id

def recordSubtree (messages : List Message) :
    Nat → List Uuid → Message → SubtreeMetadata → Except Abort (SubtreeMetadata × Uuid × Nat)
  | 0, _, _, _ => .error .defect
  | fuel + 1, visiting, message, metadata =>
    if message.id ∈ visiting then invalidPath "Invalid conversation path"
    else match childrenOf messages (.some message.id) with
      | [] => .ok ((message.id, message.id, 1) :: metadata, message.id, 1)
      | first :: rest => do
        let (metadata, leafId, count) ← (first :: rest).foldlM (fun r child => do
          let (metadata, childLeafId, childCount) ← recordSubtree messages fuel (message.id :: visiting) child r.1
          .ok (metadata, childLeafId, r.2.2 + childCount)) (metadata, first.id, 1)
        .ok ((message.id, leafId, count) :: metadata, leafId, count)

def subtreeMetadata (messages roots : List Message) : Except Abort SubtreeMetadata :=
  roots.foldlM (fun metadata root =>
    if (metadata.get root.id).isSome then .ok metadata
    else (recordSubtree messages (messages.length + 1) [] root metadata).map fun r => r.1) []

/-- `roots or loaded_messages[:1]` -/
def subtreeRoots (messages : List Message) : List Message :=
  if (childrenOf messages .none).isEmpty then messages.take 1 else childrenOf messages .none

/-- How many rows the recursive query of `branch_subtree_message_ids` returns,
one generation after the other. -/
def subtreeCount (messages : List Message) : Nat → List Message → Nat
  | 0, _ => 0
  | fuel + 1, generation =>
    generation.length + subtreeCount messages fuel (generation.flatMap fun m => childrenOf messages (.some m.id))

/-! ## Forks -/

inductive ForkStatus
  | complete
  | pending
  | error
  | cancelled
  deriving DecidableEq, Repr

def forkStatus (db : BranchDb) : Option Message → Except Abort ForkStatus
  | .none => .ok .pending
  | .some assistant =>
    if db.runStatus assistant.id = .some .cancelled then .ok .cancelled
    else match assistant.status with
      | .pending => .ok .pending
      | .error => .ok .error
      | .complete => .ok .complete
      | .cancelled => refuse .invalidRequest "Invalid assistant status"

structure ForkOptionOut where
  id : Uuid
  parentMessageId : Uuid
  userMessageId : Uuid
  assistantMessageId : Option Uuid
  leafMessageId : Uuid
  title : Option (List Char)
  preview : List Char
  branchAnchorKind : BranchAnchorKind
  branchAnchorPreview : Option (List Char)
  status : ForkStatus
  messageCount : Nat
  createdAt : Instant
  updatedAt : Instant
  active : Bool
  deriving DecidableEq, Repr

/-- The option of a branch: `_fork_option_from_loaded`, and the end of
`_fork_option_for_user_message`. -/
def forkOption (branch : ConversationBranch) (parentMessageId : Uuid) (user : Message) (assistant : Option Message)
    (status : ForkStatus) (messageCount : Nat) (activePathMessageIds : List Uuid) : ForkOptionOut where
  id := branch.id
  parentMessageId := parentMessageId
  userMessageId := user.id
  assistantMessageId := assistant.map fun m => m.id
  leafMessageId := (assistant.map fun m => m.id).getD user.id
  title := branch.title
  preview := preview user.content
  branchAnchorKind := user.branchAnchorKind
  branchAnchorPreview := branchAnchorPreview user
  status := status
  messageCount := messageCount
  createdAt := branch.createdAt
  updatedAt := branch.updatedAt
  active := activePathMessageIds.contains user.id

/-- `_branches_by_user_message_id` -/
def branchOf (db : BranchDb) (conversationId userMessageId : Uuid) : Option ConversationBranch :=
  (db.branches.find? userMessageId).filter fun b => b.conversationId == conversationId

/-- `_fork_option_from_loaded`, of a child of `parentId`. -/
def forkOptionFromLoaded (db : BranchDb) (conversationId parentId : Uuid) (messages : List Message)
    (metadata : SubtreeMetadata) (activePathMessageIds : List Uuid) (user : Message) : Except Abort ForkOptionOut :=
  match branchOf db conversationId user.id with
  | .none => refuse .notFound "Branch not found"
  | .some branch => do
    let assistant := firstAssistantChild (childrenOf messages (.some user.id))
    let status ← forkStatus db assistant
    .ok (forkOption branch parentId user assistant status (((metadata.get user.id).map fun e => e.2).getD 1)
      activePathMessageIds)

def forkOptionsByParent (db : BranchDb) (conversationId : Uuid) (parentMessageIds activePathMessageIds : List Uuid)
    (messages : List Message) : Except Abort (List (Uuid × List ForkOptionOut)) := do
  if parentMessageIds.isEmpty then .ok []
  else
    let metadata ← subtreeMetadata messages (subtreeRoots messages)
    parentMessageIds.mapM fun parentId => do
      let users := (childrenOf messages (.some parentId)).filter fun m => m.role == .user
      let options ← users.mapM (forkOptionFromLoaded db conversationId parentId messages metadata activePathMessageIds)
      .ok (parentId, options)

def forkOptionForUserMessage (db : BranchDb) (userMessageId : Uuid) (activePathMessageIds : List Uuid) :
    Except Abort ForkOptionOut :=
  match db.messages.find? userMessageId with
  | .none => refuse .messageNotFound "Branch message not found"
  | .some user => match user.parentMessageId with
    | .none => refuse .messageNotFound "Branch message not found"
    | .some parentId => match branchOf db user.conversationId user.id with
      | .none => refuse .notFound "Branch not found"
      | .some branch => do
        let conversation := (db.messages.rows.filter fun m => m.conversationId == user.conversationId).mergeSort Message.le
        let assistant := firstAssistantChild (childrenOf conversation (.some user.id))
        let status ← forkStatus db assistant
        .ok (forkOption branch parentId user assistant status (subtreeCount conversation conversation.length [user])
          activePathMessageIds)

/-! ## The graph -/

structure BranchGraphNodeOut where
  id : Uuid
  parentMessageId : Option Uuid
  leafMessageId : Uuid
  role : MessageRole
  depth : Nat
  row : Nat
  title : Option (List Char)
  preview : List Char
  branchAnchorPreview : Option (List Char)
  status : ForkStatus
  messageCount : Nat
  childCount : Nat
  activePath : Bool
  leaf : Bool
  createdAt : Instant
  deriving DecidableEq, Repr

structure BranchGraphOut where
  nodes : List BranchGraphNodeOut
  edges : List (Uuid × Uuid)
  rootMessageId : Option Uuid
  deriving DecidableEq, Repr

/-- What `visit` has written: a row for each node, and the messages visited. -/
structure GraphState where
  nodes : List BranchGraphNodeOut
  edges : List (Uuid × Uuid)
  visited : List Uuid
  deriving DecidableEq, Repr

/-- `_graph_node_status_from_loaded` -/
def graphNodeStatus (db : BranchDb) (message : Message) (children : List Message) : Except Abort ForkStatus :=
  if message.role = .assistant then forkStatus db (.some message) else forkStatus db (firstAssistantChild children)

def visit (db : BranchDb) (conversationId : Uuid) (messages : List Message) (metadata : SubtreeMetadata)
    (activePathMessageIds : List Uuid) : Nat → Message → Nat → GraphState → Except Abort GraphState
  | 0, _, _, _ => .error .defect
  | fuel + 1, message, depth, g =>
    if message.id ∈ g.visited then .ok g
    else do
      let children := childrenOf messages (.some message.id)
      let status ← graphNodeStatus db message children
      let entry := metadata.get message.id
      let node : BranchGraphNodeOut :=
        { id := message.id
          parentMessageId := message.parentMessageId
          leafMessageId := (entry.map fun e => e.1).getD message.id
          role := message.role
          depth
          row := g.nodes.length
          title := ((branchOf db conversationId message.id).filter fun _ => message.role == .user).bind fun b => b.title
          preview := preview message.content
          branchAnchorPreview := branchAnchorPreview message
          status
          messageCount := (entry.map fun e => e.2).getD 1
          childCount := children.length
          activePath := activePathMessageIds.contains message.id
          leaf := children.isEmpty
          createdAt := message.createdAt }
      children.foldlM
        (fun g child => visit db conversationId messages metadata activePathMessageIds fuel child (depth + 1)
          { g with edges := g.edges ++ [(message.id, child.id)] })
        { g with nodes := g.nodes ++ [node], visited := message.id :: g.visited }

/-- `build_branch_graph`: the roots, then what they do not reach. -/
def buildBranchGraph (db : BranchDb) (conversationId : Uuid) (activePathMessageIds : List Uuid) (messages : List Message) :
    Except Abort BranchGraphOut :=
  match messages with
  | [] => .ok ⟨[], [], .none⟩
  | first :: rest => do
    let messages := first :: rest
    let roots := childrenOf messages .none
    let metadata ← subtreeMetadata messages (subtreeRoots messages)
    let g ← (roots ++ messages).foldlM
      (fun g message => visit db conversationId messages metadata activePathMessageIds (messages.length + 1) message 0 g)
      ⟨[], [], []⟩
    .ok ⟨g.nodes, g.edges, .some ((roots.head?.map fun m => m.id).getD first.id)⟩

/-! ## The tree -/

structure ConversationTreeOut where
  selectedPath : List Message
  activeLeafMessageId : Option Uuid
  forkOptionsByParentId : List (Uuid × List ForkOptionOut)
  pathCacheByLeafId : List (Uuid × List Message)
  branchGraph : BranchGraphOut
  deriving DecidableEq, Repr

/-- `_active_leaf_for_viewer_from_loaded` -/
def activeLeafFromLoaded (db : BranchDb) (viewerId conversationId : Uuid) (messages : List Message) : Option Uuid :=
  match db.activePaths.find? (conversationId, viewerId) with
  | .some path =>
    if (messageById messages path.activeLeafMessageId).isSome then .some path.activeLeafMessageId
    else messages.getLast?.map fun m => m.id
  | .none => messages.getLast?.map fun m => m.id

/-- The leaves `build_path_cache_by_leaf_id` keeps a path of, each once. -/
def cachedLeafIds (graph : BranchGraphOut) (forkOptions : List (Uuid × List ForkOptionOut)) : List Uuid :=
  (((graph.nodes.filter fun n => n.leaf).map fun n => n.leafMessageId) ++
    forkOptions.flatMap fun p => p.2.map fun o => o.leafMessageId).dedup

def getConversationTree (db : BranchDb) (viewerId conversationId : Uuid) : Except Abort ConversationTreeOut := do
  requireVisible db viewerId conversationId
  let messages := conversationMessages db conversationId
  let activeLeafId := activeLeafFromLoaded db viewerId conversationId messages
  let selectedPath ← (match activeLeafId with
    | .none => .ok []
    | .some leafId => messagePath messages conversationId leafId)
  let pathMessageIds := selectedPath.map fun m => m.id
  let parentIds := (selectedPath.filter fun m => m.role == .assistant).map fun m => m.id
  let options ← forkOptionsByParent db conversationId parentIds pathMessageIds messages
  let forkOptions := options.filter fun p => decide (1 < p.2.length)
  let branchGraph ← buildBranchGraph db conversationId pathMessageIds messages
  let pathCache ← (cachedLeafIds branchGraph forkOptions).mapM fun leafId =>
    (messagePath messages conversationId leafId).map fun path => (leafId, path)
  .ok ⟨selectedPath, activeLeafId, forkOptions, pathCache, branchGraph⟩

def persistActiveLeaf (db : BranchDb) (viewerId conversationId leafId : Uuid) : BranchDb :=
  let path : ConversationActivePath := ⟨conversationId, viewerId, leafId⟩
  match db.activePaths.insert? path with
  | .some activePaths => { db with activePaths }
  | .none =>
    let isViewers (p : ConversationActivePath) : Bool := p.conversationId == conversationId && p.viewerUserId == viewerId
    { db with activePaths := db.activePaths.updateWhere isViewers fun p => { p with activeLeafMessageId := leafId } }

def setActivePath (db : BranchDb) (viewerId conversationId leafId : Uuid) :
    Except Abort (BranchDb × ConversationTreeOut) := do
  requireVisible db viewerId conversationId
  let _ ← loadLeafMessagePath db conversationId leafId
  let db := persistActiveLeaf db viewerId conversationId leafId
  let tree ← getConversationTree db viewerId conversationId
  .ok (db, tree)

/-! ## The list of forks -/

def activeLeafForViewer (db : BranchDb) (viewerId conversationId : Uuid) : Option Uuid :=
  let stored := (db.activePaths.find? (conversationId, viewerId)).bind fun p => db.messages.find? p.activeLeafMessageId
  match stored.filter fun m => m.conversationId == conversationId with
  | .some m => .some m.id
  | .none =>
    (((db.messages.rows.filter fun m => m.conversationId == conversationId).mergeSort Message.le).getLast?).map fun m => m.id

def activePathMessageIds (db : BranchDb) (viewerId conversationId : Uuid) : Except Abort (List Uuid) :=
  match activeLeafForViewer db viewerId conversationId with
  | .none => .ok []
  | .some leafId => (loadMessagePath db conversationId leafId).map fun path => path.map fun m => m.id

/-- The rows of the query of `list_forks`: a branch and its user message, once
for each of its answers; `ilike` is the database's `ILIKE '%…%'`. -/
def forkRows (ilike : List Char → List Char → Bool) (db : BranchDb) (conversationId : Uuid) (search : Option (List Char)) :
    List Uuid :=
  let searchText := (search.map pythonStrip).getD []
  let found (b : ConversationBranch) (user : Message) (assistant : Option Message) : Bool :=
    searchText.isEmpty || ilike user.content searchText || ilike (b.title.getD []) searchText ||
      ilike (user.branchAnchorExact.getD []) searchText || ilike ((assistant.map fun m => m.content).getD []) searchText
  (db.messages.rows.mergeSort Message.le).flatMap fun user =>
    match (db.branches.find? user.id).filter fun b => b.conversationId == conversationId with
    | .none => []
    | .some b =>
      let assistants := db.messages.rows.filter fun m => m.parentMessageId == .some user.id && m.role == .assistant
      let joined := if assistants.isEmpty then [.none] else assistants.map .some
      (joined.filter (found b user)).map fun _ => user.id

def listForks (ilike : List Char → List Char → Bool) (db : BranchDb) (viewerId conversationId : Uuid)
    (search : Option (List Char)) : Except Abort (List ForkOptionOut) := do
  requireVisible db viewerId conversationId
  let activePath ← activePathMessageIds db viewerId conversationId
  (forkRows ilike db conversationId search).mapM fun id => forkOptionForUserMessage db id activePath

end Nexus.Conversations
