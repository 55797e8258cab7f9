import Dataflow.Binary64.Reader
import Dataflow.Error.ProcessError
import Dataflow.Frequency
import Dataflow.Port.Flag

/-!
# Reading values from settings

Settings are texts. A setting is read as a value of the kind that the reader asks for, and a text
that denotes no value of the kind is a fault with a reason.
-/

namespace Dataflow

/-- The kinds of value that a setting can be read as. -/
inductive ValueKind where
  | int (kind : IntKind)
  | float
  | bool
  | char
  | text
  | frequency
  | flag
  | dataType
  deriving DecidableEq

/-- A value read from a setting. -/
inductive Value where
  | int (value : Int)
  | float (value : Binary64)
  | bool (value : Bool)
  | char (value : Char)
  | text (value : String)
  | frequency (value : Frequency)
  | flag (value : Flag)
  | dataType (value : DataType)
  deriving DecidableEq

/-- Why a text denotes no value of some kind. -/
inductive ReadFault where
  | int (fault : Numeral.Fault)
  | float (fault : Binary64.Fault)
  | notBool
  | noChar
  | manyChars
  | frequency (fault : Frequency.Fault)
  | flag (rejected : String)
  deriving DecidableEq

/-- The wording of a fault. -/
def ReadFault.message : ReadFault → String
  | .int fault => fault.message
  | .float fault => fault.message
  | .notBool => "provided string was not `true` or `false`"
  | .noChar => "cannot parse char from empty string"
  | .manyChars => "too many characters in string"
  | .frequency fault => (ProcessError.invalidFrequency fault.rejected).message
  | .flag rejected => (ProcessError.unknownFlag rejected).message

/-- Read a truth value. -/
def readBool (s : String) : Except ReadFault Bool :=
  if s = "true" then .ok true else if s = "false" then .ok false else .error .notBool

/-- Read a whole number. -/
def readInt (kind : IntKind) (s : String) : Except ReadFault Int :=
  (Numeral.read kind s.toList).mapError .int

/-- Read a floating-point number. -/
def readFloat (s : String) : Except ReadFault Binary64 :=
  (Binary64.read s.toList).mapError .float

/-- Read a single character. -/
def readChar (s : String) : Except ReadFault Char :=
  match s.toList with
  | [] => .error .noChar
  | [c] => .ok c
  | _ :: _ :: _ => .error .manyChars

/-- Read a value of some kind. Every text is a text, and every text denotes a type. -/
def ValueKind.read (kind : ValueKind) (s : String) : Except ReadFault Value :=
  match kind with
  | .int kind => .int <$> readInt kind s
  | .float => .float <$> readFloat s
  | .bool => .bool <$> readBool s
  | .char => .char <$> readChar s
  | .text => .ok (.text s)
  | .frequency => .frequency <$> (Frequency.parse s).mapError .frequency
  | .flag =>
    match Flag.ofText? s with
    | some found => .ok (.flag found)
    | none => .error (.flag s)
  | .dataType => .ok (.dataType (.ofText s))

/-- Read a scalar of some kind. -/
def Scalar.Kind.read (kind : Scalar.Kind) (s : String) : Except ReadFault Scalar :=
  match kind with
  | .i64 => (fun n => .i64 (.ofInt n)) <$> readInt .i64 s
  | .i32 => (fun n => .i32 (.ofInt n)) <$> readInt .i32 s
  | .u8 => (fun n => .u8 (.ofNat n.toNat)) <$> readInt .u8 s
  | .u64 => (fun n => .u64 (.ofNat n.toNat)) <$> readInt .u64 s
  | .f64 => .f64 <$> readFloat s
  | .bool => .bool <$> readBool s
  | .string => .ok (.string s)

/-- The value of the setting `key` that is stored as the text `raw`. -/
def readSetting {α : Type} (read : String → Except ReadFault α) (key raw : String) :
    Except ConfigError α :=
  (read raw).mapError fun fault => .badValue key raw fault.message

end Dataflow
