import Dataflow.Error.ProcessError
import Dataflow.Frequency
import Dataflow.Json.Basic
import Dataflow.Port.Flag

/-!
# What is known of a port

The type of its data, its flags, what it is for, and its frequency.
-/

namespace Dataflow

/-- What a process declares of a port. -/
structure PortInfo where
  type : DataType
  flags : Flags
  description : String
  frequency : Frequency
  deriving DecidableEq

namespace PortInfo

/-- The members of the document of a port. -/
def members (info : PortInfo) : List (String × Json) :=
  [("type", .text info.type.text),
   ("flags", .array (info.flags.toList.map fun flag => .text flag.text)),
   ("description", .text info.description),
   ("frequency", .text info.frequency.text)]

/-- The document of a port. -/
def json (info : PortInfo) : Json := .object info.members

end PortInfo

/-- The frequency that a text denotes. -/
def Frequency.read (s : String) : Except ProcessError Frequency :=
  (Frequency.parse s).mapError fun fault => .invalidFrequency fault.rejected

/-- The flag with a text. -/
def Flag.read (s : String) : Except ProcessError Flag :=
  match Flag.ofText? s with
  | some flag => .ok flag
  | none => .error (.unknownFlag s)

/-- A declaration of a port whose flags and frequency are still texts. -/
structure PortSource where
  type : DataType
  flags : List String
  description : String
  frequency : String
  deriving DecidableEq

/-- The declaration that the texts denote. The flags are read first, in their order. -/
def PortSource.read (source : PortSource) : Except ProcessError PortInfo :=
  match source.flags.mapM Flag.read with
  | .error e => .error e
  | .ok flags =>
    match Frequency.read source.frequency with
    | .error e => .error e
    | .ok frequency => .ok ⟨source.type, .ofList flags, source.description, frequency⟩

end Dataflow
