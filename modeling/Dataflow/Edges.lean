import Std.Data.ExtTreeMap
import Dataflow.Datum

/-!
# Edges

An edge is a queue of stamped datums between an output and an input. All edges of a network are kept
in one store, and ports refer to them by number. An edge that nothing was ever put on is empty.
-/

namespace Dataflow

/-- The number of an edge. -/
structure EdgeId where
  val : Nat
  deriving DecidableEq

namespace EdgeId

/-- The text of a number. -/
def text (id : EdgeId) : String := "#" ++ toString id.val

/-- The diagnostic text of a number. -/
def debug (id : EdgeId) : String := "EdgeId(" ++ toString id.val ++ ")"

end EdgeId

/-- A store of edges: what is queued on each, and the number of the next new edge. -/
structure Edges where
  queues : Std.ExtTreeMap Nat (List Stamped) compare
  fresh : Nat

namespace Edges

/-- The store without edges. -/
def empty : Edges := ⟨∅, 0⟩

instance : EmptyCollection Edges := ⟨empty⟩

/-- What is queued on an edge, the head first. -/
def queue (edges : Edges) (id : EdgeId) : List Stamped := edges.queues.getD id.val []

/-- The store with another queue on an edge. -/
def setQueue (edges : Edges) (id : EdgeId) (tokens : List Stamped) : Edges :=
  { edges with queues := edges.queues.insert id.val tokens }

/-- A new edge and the store that has it. -/
def create (edges : Edges) : EdgeId × Edges :=
  (⟨edges.fresh⟩, { edges with fresh := edges.fresh + 1 })

/-- Put a token at the end of an edge. -/
def push (edges : Edges) (id : EdgeId) (token : Stamped) : Edges :=
  edges.setQueue id (edges.queue id ++ [token])

/-- Put a token at the end of each of several edges. -/
def pushAll (edges : Edges) (ids : List EdgeId) (token : Stamped) : Edges :=
  ids.foldl (fun store id => store.push id token) edges

/-- The token at a distance from the head. -/
def peek? (edges : Edges) (id : EdgeId) (index : Nat) : Option Stamped := (edges.queue id)[index]?

/-- Drop up to `count` tokens from the head. -/
def drop (edges : Edges) (id : EdgeId) (count : Nat) : Edges :=
  edges.setQueue id ((edges.queue id).drop count)

/-- Take the head. -/
def pop (edges : Edges) (id : EdgeId) : Option Stamped × Edges :=
  match edges.queue id with
  | [] => (none, edges)
  | token :: rest => (some token, edges.setQueue id rest)

/-- The number of queued tokens. -/
def size (edges : Edges) (id : EdgeId) : Nat := (edges.queue id).length

/-- Drop all tokens. -/
def clear (edges : Edges) (id : EdgeId) : Edges := edges.setQueue id []

/-- The diagnostic text of an edge. -/
def debug (edges : Edges) (id : EdgeId) : String :=
  "MemoryEdge \x7b id: " ++ id.debug ++ ", size: " ++ toString (edges.size id) ++ " \x7d"

@[simp] theorem queue_setQueue_self (edges : Edges) (id : EdgeId) (tokens : List Stamped) :
    (edges.setQueue id tokens).queue id = tokens := by
  simp [queue, setQueue]

@[simp] theorem queue_setQueue_of_ne (edges : Edges) {id other : EdgeId} (tokens : List Stamped)
    (h : other ≠ id) : (edges.setQueue id tokens).queue other = edges.queue other := by
  have hval : id.val ≠ other.val := fun hv => h (by cases id; cases other; simp_all)
  simp [queue, setQueue, Std.ExtTreeMap.getD_insert, hval]

@[simp] theorem queue_push_self (edges : Edges) (id : EdgeId) (token : Stamped) :
    (edges.push id token).queue id = edges.queue id ++ [token] := by
  simp [push]

@[simp] theorem queue_push_of_ne (edges : Edges) {id other : EdgeId} (token : Stamped)
    (h : other ≠ id) : (edges.push id token).queue other = edges.queue other := by
  simp [push, h]

@[simp] theorem queue_create (edges : Edges) (id : EdgeId) :
    edges.create.2.queue id = edges.queue id := rfl

end Edges

end Dataflow
