import Dataflow.Core.Basic

/-!
# Moving data

A core and the store of edges together are the world in which a process moves data. An input takes
datums from the edge that is bound to it. An output sends a datum to all its edges under one stamp,
and goes on to the next stamp whether an edge is bound or not.
-/

namespace Dataflow

/-- The core of one process, and the edges of all. -/
structure World where
  core : Core
  edges : Edges

namespace World

/-- The edge bound to an input. -/
def inputEdge? (w : World) (port : String) : Option EdgeId :=
  (w.core.port? (.input port)).bind fun p => p.edges.head?

/-- Look at a queued datum of an input. There is none if no edge is bound. -/
def peek (w : World) (port : String) (index : Nat) : Except ProcessError (Option Stamped) :=
  match w.core.port? (.input port) with
  | none => .error (w.core.noPort (.input port))
  | some p => .ok (p.edges.head?.bind fun edge => w.edges.peek? edge index)

/-- Take the head of an input. Nothing is taken from an empty edge: who wants more than that has to
wait. -/
def grab (w : World) (port : String) : Attempt World (Option Stamped) :=
  match w.core.port? (.input port) with
  | none => (.error (w.core.noPort (.input port)), w)
  | some p =>
    match p.edges with
    | [] => (.error (.missingConnection w.core.name (.input port)), w)
    | edge :: _ =>
      let (token?, edges) := w.edges.pop edge
      (.ok token?, { w with edges })

/-- Take the head of an input for its payload, which has to be of a kind. -/
def grabAs (w : World) (port : String) (kind : Payload.Kind) : Attempt World (Option Payload) :=
  match w.grab port with
  | (.error e, w) => (.error e, w)
  | (.ok none, w) => (.ok none, w)
  | (.ok (some token), w) =>
    match token.datum.get? kind with
    | some payload => (.ok (some payload), w)
    | none => (.error (.badCast w.core.name port token.status kind), w)

/-- The scalar that a payload is, of the kind asked for. -/
def scalarOf? : Payload → Option Scalar
  | .scalar value => some value
  | .bytes _ => none

/-- Take a scalar from an input. An unbound static input reads the text of its key instead. -/
def grabInput (w : World) (port : String) (kind : Scalar.Kind) : Attempt World (Option Scalar) :=
  match w.core.port? (.input port) with
  | none => (.error (w.core.noPort (.input port)), w)
  | some p =>
    if p.edges = [] ∧ p.info.flags.static = true then
      (some <$> w.core.value kind.read (Core.staticKey port), w)
    else
      let (result, w) := w.grabAs port (.scalar kind)
      ((·.bind scalarOf?) <$> result, w)

/-- Send a datum from an output. -/
def push (w : World) (port : String) (datum : Datum) : Attempt World Unit :=
  match w.core.port? (.output port) with
  | none => (.error (w.core.noPort (.output port)), w)
  | some p =>
    (.ok (),
     { core := w.core.modifyPort (.output port) fun p => { p with stamp := p.stamp.next }
       edges := w.edges.pushAll p.edges ⟨p.stamp, datum⟩ })

/-- The heads of the bound required inputs, in the order of the names. -/
def requiredHeads (w : World) : List Head :=
  w.core.ports.toList.filterMap fun (key, port) =>
    if key.direction = .input ∧ port.info.flags.required = true then
      port.edges.head?.map fun edge => ⟨key.name, port.info.frequency, w.edges.peek? edge 0⟩
    else none

/-- Drop up to `count` datums of an input. -/
def drain (w : World) (port : String) (count : Nat) : World :=
  match w.inputEdge? port with
  | some edge => { w with edges := w.edges.drop edge count }
  | none => w

/-- Send a datum from every output but the heartbeat. -/
def pushToAll (w : World) (datum : Datum) : World :=
  ((w.core.portNames .output).filter (· ≠ Core.heartbeat)).foldl
    (fun w port => (w.push port datum).2) w

/-- Drop from every input what one step would take from it. -/
def drainStep (w : World) (heads : List Head) : World :=
  heads.foldl (fun w head => w.drain head.port head.frequency.tokensPerStep) w

/-- Report a step on the heartbeat. -/
def beat (w : World) : World :=
  (w.push Core.heartbeat (if w.core.complete then .complete else .empty)).2

end World

namespace Core

/-- Bind an edge to a port. -/
def connect (c : Core) (key : PortKey) (edge? : Option EdgeId) : Attempt Core Unit :=
  match edge? with
  | none => (.error (.nullEdge c.name key), c)
  | some edge =>
    match c.state with
    | .initialized => (.error (.connectedLate c.name key.name), c)
    | .created => (.error (.unconfigured c.name), c)
    | .configured =>
      match c.port? key with
      | none => (.error (c.noPort key), c)
      | some port =>
        if key.direction = .input ∧ port.edges ≠ [] then
          (.error (.reconnected c.name key.name), c)
        else (.ok (), c.modifyPort key fun port => { port with edges := port.edges ++ [edge] })

/-- Unbind all edges, start all stamps anew, and be ready to step again. -/
def detachAll (c : Core) : Core :=
  { c with
    ports := c.ports.map fun _ port => { port with edges := [], stamp := .first }
    complete := false }

end Core

end Dataflow
