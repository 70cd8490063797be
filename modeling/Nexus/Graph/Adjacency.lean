/-
`resource_graph/adjacency.py`: the ordered occurrences of a source, kept as
user edges with a source order key.

A reorder writes temporary keys first, so that the unique index over a
source's keys lets every occurrence keep its row while it moves, then the
numbers. `resource_view_states` is left out.
-/
import Nexus.Graph.Edges
import Nexus.Lib.DateTime
import Mathlib.Data.List.Sort

namespace Nexus.Graph
open Relational ExceptFacts

/-! ## Order keys -/

/-- The collation the database orders texts by: some total order, on texts of
digits the order by code points. -/
structure Collation where
  le : Text → Text → Bool
  total : ∀ a b, le a b = true ∨ le b a = true
  trans : ∀ a b c, le a b = true → le b c = true → le a c = true
  antisymm : ∀ a b, le a b = true → le b a = true → a = b
  digits : ∀ a b : Text, (∀ c ∈ a, c.isDigit = true) → (∀ c ∈ b, c.isDigit = true) → (le a b = true ↔ a ≤ b)

/-- `f"{index:010d}"` -/
def orderKey (index : Nat) : Text := if index < 10 ^ 10 then Iso.pad 10 index else Nat.toDigits 10 index

def reorderingKey (id : Uuid) : Text := "reordering:".toList ++ uuidStr id

def pendingKey (target : ResourceRef) : Text := "pending:".toList ++ uuidStr target.id

/-! ## Reading a surface -/

/-- The rows `ordered_edges` selects. -/
def onSurface (userId : Uuid) (source : ResourceRef) (e : ResourceEdge) : Bool :=
  e.userId == userId && e.source == source && e.isOrdered

def ResourceEdge.key (e : ResourceEdge) : Text := e.sourceOrderKey.getD []

/-- `ORDER BY source_order_key, id` -/
def ResourceEdge.comesBefore (coll : Collation) (e f : ResourceEdge) : Prop :=
  if e.key = f.key then e.id ≤ f.id else coll.le e.key f.key = true

instance (coll : Collation) : DecidableRel (ResourceEdge.comesBefore coll) := fun e f => by
  unfold ResourceEdge.comesBefore
  infer_instance

def orderedEdges (coll : Collation) (userId : Uuid) (source : ResourceRef) (s : Edges) : List ResourceEdge :=
  (s.rows.filter (onSurface userId source)).insertionSort (ResourceEdge.comesBefore coll)

def orderedEdgeForOccurrence (userId : Uuid) (source : ResourceRef) (occurrenceId : Uuid) (s : Edges) :
    Except Abort ResourceEdge :=
  match (s.toTable.find? occurrenceId).filter (onSurface userId source) with
  | .none => .error (.api ⟨.notFound, "Surface occurrence not found"⟩)
  | .some edge => .ok edge

/-! ## Writing a surface -/

def insertOrderedTarget (coll : Collation) (w : GraphView) (userId : Uuid) (source target : ResourceRef) (s : Edges) :
    Except Abort (Edges × ResourceEdge) := do
  assertRefVisible w source
  if !resourceCanOwnOrderedAdjacency source then .error (invalidRequest "Resource cannot own ordered adjacency")
  else
    assertRefVisible w target
    if !resourceCanBeOrderedAdjacencyTarget target then .error (invalidRequest "Resource cannot be an ordered target")
    else if source = target then .error (invalidRequest "A resource cannot be adjacent to itself")
    else if (orderedEdges coll userId source s).any fun e => e.target == target then
      .error (invalidRequest "Adjacent items must be distinct")
    else
      let edge : EdgeCreate :=
        { source, target, kind := .context, origin := .user, sourceOrderKey := .some (pendingKey target) }
      flushInsert s ⟨edge, w.newEdgeId, userId⟩

def removeOrderedEdge (userId : Uuid) (source : ResourceRef) (occurrenceId : Uuid) (s : Edges) : Except Abort Edges := do
  let edge ← orderedEdgeForOccurrence userId source occurrenceId s
  .ok (s.deleteWhere fun e => e.id == edge.id)

def ResourceEdge.setKey (e : ResourceEdge) (key : Text) : ResourceEdge := { e with sourceOrderKey := .some key }

/-- One flush of new order keys, row by row. -/
def flushKeys (newKey : Uuid → Text) : List Uuid → Edges → Except Abort Edges
  | [], s => .ok s
  | id :: rest, s =>
    match s.update? id fun e => e.setKey (newKey id) with
    | .none => .error .database
    | .some s => flushKeys newKey rest s

/-- The place of an id in a list, from 1 on. -/
def rankOf (ids : List Uuid) (id : Uuid) : Nat := ids.idxOf id + 1

/-- `reorder_ordered_edges`. A flush writes its rows by primary key. -/
def reorderOrderedEdges (coll : Collation) (userId : Uuid) (source : ResourceRef) (edges : List ResourceEdge)
    (s : Edges) : Except Abort Edges :=
  let current := (orderedEdges coll userId source s).map ResourceEdge.id
  let ids := edges.map ResourceEdge.id
  if !(current.all (· ∈ ids) && ids.all (· ∈ current)) ∨ current.length ≠ ids.length then
    .error (invalidRequest "Ordered occurrences must match the surface")
  else if ids.dedup.length ≠ ids.length then .error (invalidRequest "Ordered occurrences must be unique")
  else do
    let written := current.insertionSort (· ≤ ·)
    let s ← flushKeys reorderingKey written s
    flushKeys (fun id => orderKey (rankOf ids id)) written s

end Nexus.Graph
