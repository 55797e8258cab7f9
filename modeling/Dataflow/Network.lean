import Dataflow.Config.Document
import Dataflow.Process.Snapshot
import Dataflow.Script.Basic

/-!
# Networks

A network holds processes and edges under names. Processes meet only at edges: what one of them puts
on an edge is there for the others.
-/

namespace Dataflow

/-- Processes and edges under names. -/
structure Network (σ : Type) where
  edges : Edges
  edgeNames : NameMap EdgeId
  processes : NameMap (Process σ)

namespace Network

variable {σ : Type}

/-- The network without processes and edges. -/
def empty : Network σ := ⟨.empty, ∅, ∅⟩

/-- The edge with a name. -/
def edge? (n : Network σ) (name : String) : Option EdgeId := n.edgeNames[name]?

/-- The process with a name. -/
def process? (n : Network σ) (name : String) : Option (Process σ) := n.processes[name]?

/-- Change what a process remembers. -/
def remember (n : Network σ) (name : String) (change : σ → σ) : Network σ :=
  { n with processes := n.processes.modify name fun p => { p with memory := change p.memory } }

/-- The network without the process of a name. -/
def discard (n : Network σ) (name : String) : Network σ :=
  { n with processes := n.processes.erase name }

/-- Create an edge under a name. An edge that had the name stays where it is bound. -/
def createEdge (n : Network σ) (name : String) : EdgeId × Network σ :=
  let (id, edges) := n.edges.create
  (id, { n with edges, edgeNames := n.edgeNames.insert name id })

/-- The network with its edges in another state. -/
def setEdges (n : Network σ) (edges : Edges) : Network σ := { n with edges }

/-- Put tokens with consecutive stamps at the end of an edge. -/
def feed (n : Network σ) (edge : EdgeId) (stamp : Stamp) : List Datum → Network σ
  | [] => n
  | datum :: rest => (n.setEdges (n.edges.push edge ⟨stamp, datum⟩)).feed edge stamp.next rest

/-- Take all tokens from an edge. -/
def takeAll (n : Network σ) (edge : EdgeId) : List Stamped × Network σ :=
  (n.edges.queue edge, n.setEdges (n.edges.clear edge))

/-- Put a process and the edges it left behind into the network. -/
def put (n : Network σ) (name : String) (after : Process σ × Edges) : Network σ :=
  { n with processes := n.processes.insert name after.1, edges := after.2 }

/-- Make a process under a name, in place of any other. What the plugin remembers is given even if
making the process fails, and then there is no process under the name. -/
def create (n : Network σ) (name : String) (config : Config) (plugin : Plugin σ) (memory : σ) :
    Attempt (σ × Network σ) Unit :=
  match Process.create config plugin memory n.edges with
  | (.ok (), p, edges) => (.ok (), p.memory, n.put name (p, edges))
  | (.error e, p, edges) => (.error e, p.memory, (n.discard name).setEdges edges)

/-- Do something with a process of the network, if there is one of the name. -/
def act {α : Type} (n : Network σ) (name : String)
    (action : Process σ → Edges → Attempt (Process σ × Edges) α) : Option (Attempt (Network σ) α) :=
  (n.process? name).map fun p =>
    let (result, after) := action p n.edges
    (result, n.put name after)

/-- Give a command to a process of the network. -/
def command (n : Network σ) (name : String) (c : Command) : Option (Attempt (Network σ) c.Reply) :=
  n.act name fun p edges => p.perform edges c

/-- Answer a query on the core of a process, out of any hook. -/
def query (n : Network σ) (name : String) (q : Script.Query) :
    Option (Except Script.Refusal Script.Answer × Network σ) :=
  (n.process? name).map fun p =>
    let (result, w) := q.run.run (p.world n.edges)
    (result, n.put name (p.inWorld w))

end Network

end Dataflow
