import Dataflow.Check
import Dataflow.Edges
import Dataflow.Groups.Basic
import Dataflow.Port.Info
import Dataflow.Registry
import Dataflow.Text.Quoted

/-!
# The core of a process

A core is what every process has, whatever it does: its ports and what is bound to them, its keys,
the groups in which its ports find their types, and how far its life has come.
-/

namespace Dataflow

/-- How far the life of a process has come. -/
inductive State where
  | created
  | configured
  | initialized
  deriving DecidableEq

namespace State

/-- All states, in their order. -/
def all : List State := [created, configured, initialized]

/-- The text of a state. -/
def text : State → String
  | created => "created"
  | configured => "configured"
  | initialized => "initialized"

/-- The name of a state in diagnostic texts. -/
def title : State → String
  | created => "Created"
  | configured => "Configured"
  | initialized => "Initialized"

end State

/-- A declared port. Its information shows the type that was found, which may differ from the
declared one. An input has one edge at most; the stamp is the place of the next datum that an
output sends. -/
structure Port where
  declared : DataType
  info : PortInfo
  edges : List EdgeId
  stamp : Stamp
  deriving DecidableEq

/-- Ports, keys and run state of a process. -/
structure Core where
  name : String
  typeName : String
  state : State
  complete : Bool
  level : CheckLevel
  registry : Registry
  ports : Std.ExtTreeMap PortKey Port compare
  groups : Groups

/-- What an operation that may fail gives: its result, and the state it leaves behind. -/
abbrev Attempt (σ α : Type) := Except ProcessError α × σ

namespace Core

/-- The output on which every step is reported. -/
def heartbeat : String := "_heartbeat"

/-- What the key of a static input starts with; the rest is the name of the input. -/
def staticHead : String := "static/"

/-- The name of a process whose configuration gives none. -/
def defaultName : String := "(unnamed)"

/-- The type of a process whose configuration gives none. -/
def defaultType : String := "(unknown)"

/-- The key that holds the value of a static input. -/
def staticKey (port : String) : String := staticHead ++ port

/-- A declared port. -/
def port? (c : Core) (key : PortKey) : Option Port := c.ports[key]?

/-- The error of a port that is not declared. -/
def noPort (c : Core) (key : PortKey) : ProcessError := .noSuchPort c.name key

/-- The names of the ports of a direction, in their order. -/
def portNames (c : Core) (direction : Direction) : List String :=
  c.ports.keys.filterMap fun key => if key.direction = direction then some key.name else none

/-- Change a declared port. -/
def modifyPort (c : Core) (key : PortKey) (change : Port → Port) : Core :=
  { c with ports := c.ports.modify key change }

/-- What is known of a port. -/
def info (c : Core) (key : PortKey) : Except ProcessError PortInfo :=
  match c.port? key with
  | some port => .ok port.info
  | none => .error (c.noPort key)

/-- The number of edges bound to a port. -/
def edgeCount (c : Core) (key : PortKey) : Except ProcessError Nat :=
  match c.port? key with
  | some port => .ok port.edges.length
  | none => .error (c.noPort key)

/-- The stamp of the next datum that an output sends. -/
def nextStamp (c : Core) (port : String) : Except ProcessError Stamp :=
  match c.port? (.output port) with
  | some p => .ok p.stamp
  | none => .error (c.noPort (.output port))

/-- The configured texts. -/
def config (c : Core) : Config := c.registry.values

/-- A value of the text of a declared key. -/
def value {α : Type} (c : Core) (read : String → Except ReadFault α) (key : String) :
    Except ProcessError α :=
  (c.registry.value read key).mapError .config

/-- Check heads at another level. -/
def setLevel (c : Core) (level : CheckLevel) : Core := { c with level }

/-- Step no more. -/
def markComplete (c : Core) : Core := { c with complete := true }

/-- The diagnostic text of a core. -/
def debug (c : Core) : String :=
  let names (direction : Direction) := Text.bracketed ((c.portNames direction).map Text.quoted)
  "ProcessCore \x7b name: " ++ Text.quoted c.name ++ ", type: " ++ Text.quoted c.typeName
    ++ ", state: " ++ c.state.title ++ ", complete: " ++ (if c.complete then "true" else "false")
    ++ ", inputs: " ++ names .input ++ ", outputs: " ++ names .output ++ " \x7d"

end Core

end Dataflow
