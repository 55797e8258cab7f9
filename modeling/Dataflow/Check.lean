import Dataflow.Datum
import Dataflow.Error.ConfigError
import Dataflow.Frequency
import Dataflow.Json.Reader

/-!
# The check before a step

Before a process steps, the heads of its bound required inputs are looked at, without taking them.
If they are not at the same place of their streams, or if one of them is not ordinary data, the
process does not run and a fault goes to its outputs in place of its results.
-/

namespace Dataflow

/-- How much of the heads is checked. Each level includes the ones before it. -/
inductive CheckLevel where
  | none
  | sync
  | valid
  deriving DecidableEq

namespace CheckLevel

/-- All levels, the laxest first. -/
def all : List CheckLevel := [none, sync, valid]

/-- The level of a process that asks for no other. -/
def standard : CheckLevel := valid

/-- How strict a level is. -/
def strictness : CheckLevel → Nat
  | none => 0
  | sync => 1
  | valid => 2

instance : LE CheckLevel := ⟨fun a b => a.strictness ≤ b.strictness⟩

instance (a b : CheckLevel) : Decidable (a ≤ b) :=
  inferInstanceAs (Decidable (a.strictness ≤ b.strictness))

/-- The text of a level. -/
def text : CheckLevel → String
  | none => "none"
  | sync => "sync"
  | valid => "valid"

/-- The name of a level in diagnostic texts. -/
def title : CheckLevel → String
  | none => "None"
  | sync => "Sync"
  | valid => "Valid"

/-- The level with a text. -/
def ofText? (s : String) : Option CheckLevel := all.find? fun level => level.text = s

/-- The level that a JSON text chooses. -/
def ofJson (source : String) : Except ConfigError CheckLevel :=
  ((Json.choice? source).bind ofText?).elim (.error .malformedJson) .ok

end CheckLevel

/-- The head of an input, or its absence if the edge is empty. -/
structure Head where
  port : String
  frequency : Frequency
  token? : Option Stamped
  deriving DecidableEq

namespace Head

/-- The place of the head in its stream. -/
def stamp? (head : Head) : Option Stamp := head.token?.map Stamped.stamp

/-- The status of the head. An empty edge has nothing for this step. -/
def status (head : Head) : Status := (head.token?.map Stamped.status).getD .empty

end Head

/-- Whether the heads that are there are all at the place of the first one. -/
def inSync (heads : List Head) : Bool :=
  match heads.filterMap Head.stamp? with
  | [] => true
  | first :: rest => rest.all (· == first)

/-- The gravest status among the heads. -/
def worstStatus (heads : List Head) : Status := Status.worst (heads.map Head.status)

/-- What is to be done with a step. -/
inductive Verdict where
  | step
  | desync
  | propagate (status : Status)
  deriving DecidableEq

/-- The outcome of the check. A process whose inputs need not be in sync passes `checkSync` as
false; the statuses are checked all the same. -/
def verdict (level : CheckLevel) (checkSync : Bool) (heads : List Head) : Verdict :=
  if level = .none ∨ heads = [] then .step
  else if checkSync = true ∧ inSync heads = false then .desync
  else if level = .valid ∧ worstStatus heads ≠ .data then .propagate (worstStatus heads)
  else .step

end Dataflow
