import Dataflow.Process.Basic

/-!
# Snapshots

A snapshot is a document of what a process declares and where it stands.
-/

namespace Dataflow

/-- A port in a snapshot. -/
structure PortSnapshot where
  name : String
  info : PortInfo
  edges : Nat
  deriving DecidableEq

/-- A key in a snapshot. -/
structure KeySnapshot where
  key : String
  value : String
  info : KeyInfo
  deriving DecidableEq

/-- A process as it stands. -/
structure Snapshot where
  name : String
  typeName : String
  state : State
  complete : Bool
  level : CheckLevel
  properties : List Property
  inputs : List PortSnapshot
  outputs : List PortSnapshot
  keys : List KeySnapshot
  deriving DecidableEq

namespace Snapshot

/-- The ports of a direction. A port is listed if both of its look-ups succeed. -/
def portsOf (c : Core) (direction : Direction) : List PortSnapshot :=
  (c.portNames direction).filterMap fun name =>
    match c.info ⟨direction, name⟩, c.edgeCount ⟨direction, name⟩ with
    | .ok info, .ok edges => some ⟨name, info, edges⟩
    | _, _ => none

/-- The declared keys. A key is listed if both of its look-ups succeed. -/
def keysOf (r : Registry) : List KeySnapshot :=
  r.available.filterMap fun key =>
    match r.info key, r.raw key with
    | .ok info, .ok value => some ⟨key, value, info⟩
    | _, _ => none

/-- The snapshot of a core whose process has some properties. -/
def ofCore (c : Core) (properties : Properties) : Snapshot where
  name := c.name
  typeName := c.typeName
  state := c.state
  complete := c.complete
  level := c.level
  properties := properties.toList
  inputs := portsOf c .input
  outputs := portsOf c .output
  keys := keysOf c.registry

/-- The input with a name. -/
def input? (s : Snapshot) (name : String) : Option PortSnapshot :=
  s.inputs.find? fun port => port.name = name

/-- The output with a name. -/
def output? (s : Snapshot) (name : String) : Option PortSnapshot :=
  s.outputs.find? fun port => port.name = name

end Snapshot

/-- The document of a port. -/
def PortSnapshot.json (port : PortSnapshot) : Json :=
  .object (("name", .text port.name) :: port.info.members ++ [("edges", .int port.edges)])

/-- The document of a key. -/
def KeySnapshot.json (key : KeySnapshot) : Json :=
  .object
    [("key", .text key.key), ("value", .text key.value), ("default", .text key.info.default),
     ("description", .text key.info.description), ("tunable", .bool key.info.tunable)]

/-- The document of a snapshot. -/
def Snapshot.json (s : Snapshot) : Json :=
  .object
    [("name", .text s.name), ("type", .text s.typeName), ("state", .text s.state.text),
     ("complete", .bool s.complete), ("data_check", .text s.level.text),
     ("properties", .array (s.properties.map fun property => .text property.text)),
     ("inputs", .array (s.inputs.map PortSnapshot.json)),
     ("outputs", .array (s.outputs.map PortSnapshot.json)),
     ("config", .array (s.keys.map KeySnapshot.json))]

/-- The snapshot of a process. -/
def Process.snapshot {σ : Type} (p : Process σ) : Snapshot := .ofCore p.core p.properties

end Dataflow
