import Dataflow.Binary64.Basic
import Dataflow.Text.Quoted

/-!
# Datums

A datum is one token on an edge. It carries a payload, or a mark in place of one: there is nothing
for this step, something went wrong, the sender is finished. Every datum of a stream has a stamp,
its place in the stream.
-/

namespace Dataflow

/-- What a datum says of its stream. -/
inductive Status where
  | data
  | empty
  | error
  | complete
  deriving DecidableEq

namespace Status

/-- All statuses, the mildest first. -/
def all : List Status := [data, empty, error, complete]

/-- How grave a status is. -/
def severity : Status → Nat
  | data => 0
  | empty => 1
  | error => 2
  | complete => 3

/-- The text of a status. -/
def text : Status → String
  | data => "data"
  | empty => "empty"
  | error => "error"
  | complete => "complete"

/-- The name of a status in diagnostic texts. -/
def title : Status → String
  | data => "Data"
  | empty => "Empty"
  | error => "Error"
  | complete => "Complete"

/-- Different statuses are not equally grave. -/
theorem severity_inj {a b : Status} (h : a.severity = b.severity) : a = b := by
  cases a <;> cases b <;> first | rfl | simp [severity] at h

instance : LE Status := ⟨fun a b => a.severity ≤ b.severity⟩

instance : LT Status := ⟨fun a b => a.severity < b.severity⟩

instance (a b : Status) : Decidable (a ≤ b) := inferInstanceAs (Decidable (a.severity ≤ b.severity))

instance (a b : Status) : Decidable (a < b) := inferInstanceAs (Decidable (a.severity < b.severity))

/-- The graver of two statuses. -/
def worse (a b : Status) : Status := if a ≤ b then b else a

/-- The gravest of several statuses. There is nothing wrong with none at all. -/
def worst (statuses : List Status) : Status := statuses.foldl worse data

/-- The status with a text. -/
def ofText? (s : String) : Option Status := all.find? fun status => status.text = s

end Status

/-- A payload that can also be written as a text. -/
inductive Scalar where
  | i64 (value : Int64)
  | i32 (value : Int32)
  | u8 (value : UInt8)
  | u64 (value : UInt64)
  | f64 (value : Binary64)
  | bool (value : Bool)
  | string (value : String)
  deriving DecidableEq

/-- The kinds of scalar. -/
inductive Scalar.Kind where
  | i64 | i32 | u8 | u64 | f64 | bool | string
  deriving DecidableEq

/-- The kind of a scalar. -/
def Scalar.kind : Scalar → Scalar.Kind
  | .i64 _ => .i64
  | .i32 _ => .i32
  | .u8 _ => .u8
  | .u64 _ => .u64
  | .f64 _ => .f64
  | .bool _ => .bool
  | .string _ => .string

/-- What a datum carries. -/
inductive Payload where
  | scalar (value : Scalar)
  | bytes (value : List UInt8)
  deriving DecidableEq

/-- The kinds of payload. -/
inductive Payload.Kind where
  | scalar (kind : Scalar.Kind)
  | bytes
  deriving DecidableEq

namespace Payload

/-- The kind of a payload. -/
def kind : Payload → Kind
  | scalar value => .scalar value.kind
  | bytes _ => .bytes

/-- The name of a kind of payload in error messages. -/
def Kind.typeName : Kind → String
  | .scalar .i64 => "i64"
  | .scalar .i32 => "i32"
  | .scalar .u8 => "u8"
  | .scalar .u64 => "u64"
  | .scalar .f64 => "f64"
  | .scalar .bool => "bool"
  | .scalar .string => "alloc::string::String"
  | .bytes => "alloc::vec::Vec<u8>"

end Payload

/-- One token on an edge: a payload, a bare status, or an error with its message. -/
inductive Datum where
  | payload (value : Payload)
  | marker (status : Status)
  | error (message : String)
  deriving DecidableEq

namespace Datum

/-- The datum of a scalar. -/
def scalar (value : Scalar) : Datum := payload (.scalar value)

/-- There is nothing for this step. -/
def empty : Datum := marker .empty

/-- The sender is finished. -/
def complete : Datum := marker .complete

/-- The status of a datum. -/
def status : Datum → Status
  | payload _ => .data
  | marker status => status
  | error _ => .error

/-- Whether a datum is ordinary data. -/
def isData (d : Datum) : Bool := d.status = .data

/-- The message of an error. -/
def message? : Datum → Option String
  | error message => some message
  | payload _ | marker _ => none

/-- The payload, if there is one. -/
def payload? : Datum → Option Payload
  | payload value => some value
  | marker _ | error _ => none

/-- The payload, if it is of the kind asked for. -/
def get? (d : Datum) (kind : Payload.Kind) : Option Payload :=
  d.payload?.filter fun value => value.kind = kind

/-- What is got is of the kind asked for. -/
theorem kind_of_get? {d : Datum} {kind : Payload.Kind} {value : Payload}
    (h : d.get? kind = some value) : value.kind = kind := by
  simpa using (Option.filter_eq_some_iff.mp h).2

/-- The diagnostic text of a datum. It does not show the payload. -/
def debug (d : Datum) : String :=
  let message := match d.message? with
    | some text => "Some(" ++ Text.quoted text ++ ")"
    | none => "None"
  "Datum \x7b status: " ++ d.status.title
    ++ ", has_payload: " ++ (if d.payload?.isSome then "true" else "false")
    ++ ", error: " ++ message ++ " \x7d"

end Datum

/-- A place in a stream, counted from zero. A running process keeps it in 64 bits. It never comes to
their end: every output counts from `first` by `next`, one for each datum that it sends, so that the
end is `2 ^ 64` datums away, and a process that sends one in a nanosecond takes five hundred years for
these. So places are natural numbers here, and `next` never fails. -/
abbrev Stamp := Nat

namespace Stamp

/-- The first place. -/
def first : Stamp := 0

/-- The place behind. -/
def next (stamp : Stamp) : Stamp := stamp + 1

/-- The text of a place. -/
def text (stamp : Stamp) : String := "#" ++ toString stamp

end Stamp

/-- A datum at its place in a stream. -/
structure Stamped where
  stamp : Stamp
  datum : Datum
  deriving DecidableEq

/-- The status of the datum. -/
def Stamped.status (token : Stamped) : Status := token.datum.status

end Dataflow
