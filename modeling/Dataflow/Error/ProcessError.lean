import Dataflow.Datum
import Dataflow.Error.ConfigError
import Dataflow.Port.DataType
import Dataflow.Port.Key

/-!
# Errors of processes

What can go wrong when a process is declared, wired and stepped: misuse by whoever assembles it, and
mistakes of the process itself. Faults of the data are no errors, they travel as datums.
-/

namespace Dataflow

/-- An error of a process. Most name the process first. -/
inductive ProcessError where
  | alreadyConfigured (name : String)
  | unconfigured (name : String)
  | reinitialized (name : String)
  | uninitialized (name : String)
  | reconfiguredEarly (name : String)
  | connectedLate (name port : String)
  | typeSetLate (name port : String)
  | declaredLate (name port : String)
  | noSuchPort (name : String) (port : PortKey)
  | duplicatePort (name : String) (port : PortKey)
  | nullEdge (name : String) (port : PortKey)
  | reconnected (name port : String)
  | flagMismatch (name port reason : String)
  | reservedPort (name port : String)
  | invalidFrequency (rejected : String)
  | unknownFlag (rejected : String)
  | staticTypeReset (name port : String) (current proposed : DataType)
  | missingConnection (name : String) (port : PortKey)
  | badCast (name port : String) (status : Status) (expected : Payload.Kind)
  | config (cause : ConfigError)
  | plugin (message : String) (contexts : List String)
  deriving DecidableEq

namespace ProcessError

/-- The wording of an error. Of a failed hook with contexts, the last context alone is shown. -/
def message : ProcessError → String
  | alreadyConfigured name => "Process '" ++ name ++ "' was already configured"
  | unconfigured name => "Process '" ++ name ++ "' was initialized before being configured"
  | reinitialized name => "Process '" ++ name ++ "' was initialized twice"
  | uninitialized name => "Process '" ++ name ++ "' was used before being initialized"
  | reconfiguredEarly name => "Process '" ++ name ++ "' was reconfigured before being initialized"
  | connectedLate name port =>
    "Process '" ++ name ++ "' received a connection on port '" ++ port ++ "' after initialization"
  | typeSetLate name port =>
    "Process '" ++ name ++ "' had the type of port '" ++ port ++ "' set after initialization"
  | declaredLate name port =>
    "Process '" ++ name ++ "' changed the declaration of port '" ++ port
      ++ "' after initialization"
  | noSuchPort name port =>
    "Process '" ++ name ++ "' has no " ++ port.direction.text ++ " port named '" ++ port.name ++ "'"
  | duplicatePort name port =>
    "Process '" ++ name ++ "' already declares an " ++ port.direction.text ++ " port named '"
      ++ port.name ++ "'"
  | nullEdge name port =>
    "Process '" ++ name ++ "' was given a null edge for " ++ port.direction.text ++ " port '"
      ++ port.name ++ "'"
  | reconnected name port =>
    "Input port '" ++ port ++ "' on process '" ++ name ++ "' is already connected"
  | flagMismatch name port reason =>
    "Port '" ++ port ++ "' on process '" ++ name ++ "' has incompatible flags: " ++ reason
  | reservedPort name port =>
    "Port '" ++ port ++ "' on process '" ++ name ++ "' is reserved and cannot be removed"
  | invalidFrequency rejected => "Invalid port frequency: " ++ rejected
  | unknownFlag rejected => "Unknown port flag: " ++ rejected
  | staticTypeReset name port current proposed =>
    "Port '" ++ port ++ "' on process '" ++ name ++ "' has static type '" ++ current.text
      ++ "' and cannot be set to '" ++ proposed.text ++ "'"
  | missingConnection name port =>
    "The " ++ port.direction.text ++ " port '" ++ port.name ++ "' on process '" ++ name
      ++ "' has no edge"
  | badCast name port status expected =>
    "Datum on port '" ++ port ++ "' of process '" ++ name ++ "' (" ++ status.text ++ ") is not a "
      ++ expected.typeName
  | config cause => cause.message
  | plugin message contexts => contexts.getLast?.getD message

/-- The short label of an error. -/
def kind : ProcessError → String
  | alreadyConfigured _ => "already configured"
  | unconfigured _ => "unconfigured"
  | reinitialized _ => "reinitialized"
  | uninitialized _ => "uninitialized"
  | reconfiguredEarly _ => "reconfigure before init"
  | connectedLate _ _ => "connect after init"
  | typeSetLate _ _ => "set type on initialized"
  | declaredLate _ _ => "declare after init"
  | noSuchPort _ _ => "no such port"
  | duplicatePort _ _ => "duplicate port"
  | nullEdge _ _ => "null edge"
  | reconnected _ _ => "port reconnect"
  | flagMismatch _ _ _ => "flag mismatch"
  | reservedPort _ _ => "reserved port"
  | invalidFrequency _ => "invalid frequency"
  | unknownFlag _ => "unknown flag"
  | staticTypeReset _ _ _ _ => "static type reset"
  | missingConnection _ _ => "missing connection"
  | badCast _ _ _ _ => "bad datum cast"
  | config cause => cause.kind
  | plugin _ _ => "plugin"

end ProcessError

end Dataflow
