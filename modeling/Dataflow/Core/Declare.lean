import Dataflow.Core.Basic

/-!
# Declarations

Ports and keys are declared by name. Ports can be declared, removed and given another frequency
until the process is initialized.
-/

namespace Dataflow

/-- Why flags do not go together, or do not go with a direction. -/
inductive FlagClash where
  | requiredStatic
  | inputOnly
  | outputOnly
  | constShared
  deriving DecidableEq

/-- The wording of a clash. -/
def FlagClash.message : FlagClash → String
  | requiredStatic => "a required port cannot be static"
  | inputOnly => "input-only flag on an output port"
  | outputOnly => "output-only flag on an input port"
  | constShared => "a const output cannot also be shared"

/-- The clash of the flags of a port, if there is one. -/
def flagClash? (direction : Direction) (flags : Flags) : Option FlagClash :=
  if flags.required && flags.static then some .requiredStatic
  else match direction with
    | .output =>
      if flags.static || flags.mutable || flags.nodep then some .inputOnly
      else if flags.const && flags.shared then some .constShared
      else none
    | .input => if flags.const || flags.shared then some .outputOnly else none

namespace Core

/-- The information of the key of a static input. -/
def staticInfo (port : String) : KeyInfo :=
  ⟨"", "A default value to use for the '" ++ port ++ "' port if it is not connected.", false⟩

/-- The registry with the key of a static input, which the process may have declared before. -/
def declareStatic (r : Registry) (key : PortKey) (flags : Flags) : Except ConfigError Registry :=
  if key.direction = .input ∧ flags.static = true ∧ r.isDeclared (staticKey key.name) = false then
    r.declare (staticKey key.name) (staticInfo key.name)
  else .ok r

/-- The type that a new port shows: the one that is pinned on the class of its tag, else the
declared one. -/
def visibleType (g : Groups) (declared : DataType) : DataType × Groups :=
  match declared.tag? with
  | none => (declared, g)
  | some tag =>
    match g.pinOfTag tag with
    | (some type, g) => (.concrete type, g)
    | (none, g) => (declared, g)

/-- Declare a port. -/
def declare (c : Core) (key : PortKey) (info : PortInfo) : Attempt Core Unit :=
  if c.state = .initialized then (.error (.declaredLate c.name key.name), c)
  else if c.ports.contains key then (.error (.duplicatePort c.name key), c)
  else match flagClash? key.direction info.flags with
    | some clash => (.error (.flagMismatch c.name key.name clash.message), c)
    | none =>
      let (_, groups) := c.groups.join key info.type.tag?
      let (type, groups) := visibleType groups info.type
      let c := { c with groups }
      match declareStatic c.registry key info.flags with
      | .error e => (.error (.config e), c)
      | .ok registry =>
        let port := ⟨info.type, { info with type }, [], .first⟩
        (.ok (), { c with registry, ports := c.ports.insert key port })

/-- Remove a port. The heartbeat stays. -/
def remove (c : Core) (key : PortKey) : Attempt Core Unit :=
  if key = .output heartbeat then (.error (.reservedPort c.name key.name), c)
  else if c.state = .initialized then (.error (.declaredLate c.name key.name), c)
  else if c.ports.contains key then
    (.ok (), { c with ports := c.ports.erase key, groups := c.groups.leave key })
  else (.error (c.noPort key), c)

/-- Give a port another frequency. -/
def setFrequency (c : Core) (key : PortKey) (frequency : Frequency) : Attempt Core Unit :=
  if c.state = .initialized then (.error (.declaredLate c.name key.name), c)
  else if c.ports.contains key then
    (.ok (), c.modifyPort key fun port => { port with info := { port.info with frequency } })
  else (.error (c.noPort key), c)

/-- Declare a key. -/
def declareKey (c : Core) (key : String) (info : KeyInfo) : Attempt Core Unit :=
  match c.registry.declare key info with
  | .ok registry => (.ok (), { c with registry })
  | .error e => (.error (.config e), c)

/-- The information of the heartbeat. -/
def heartbeatInfo : PortInfo :=
  ⟨.none, .empty, "Outputs the heartbeat stamp with its status.", .one⟩

/-- The information of the key of the name. -/
def nameInfo : KeyInfo := ⟨defaultName, "The name of the process.", false⟩

/-- The information of the key of the type. -/
def typeInfo : KeyInfo := ⟨defaultType, "The type of the process.", false⟩

/-- The core over a configuration, before anything is declared. -/
def bare (config : Config) : Core where
  name := (config.get? Config.nameKey).getD defaultName
  typeName := (config.get? Config.typeKey).getD defaultType
  state := .created
  complete := false
  level := .standard
  registry := .ofConfig config
  ports := ∅
  groups := .empty

/-- A new core. Its name, its type and its heartbeat are declared. -/
def ofConfig (config : Config) : Core :=
  let c := ((bare config).declareKey Config.nameKey nameInfo).2
  let c := (c.declareKey Config.typeKey typeInfo).2
  (c.declare (.output heartbeat) heartbeatInfo).2

end Core

end Dataflow
