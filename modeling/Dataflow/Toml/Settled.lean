import Dataflow.Toml.Value

/-!
# Settled values

A document is read with the entries of its tables in the order in which they stand. In a settled
value they are in the order of the keys, character by character by code point. A table within the
document may stand for a moment: its first entry then has a key that is kept for that and spells the
moment out, and what else is in the table does not matter.
-/

namespace Dataflow.Toml

/-- The key of a table that stands for a moment. -/
def momentKey : String := "$__toml_private_datetime"

/-- Whether a table stands for a moment. -/
def standsForMoment : Table → Bool
  | (key, _) :: _ => key = momentKey
  | [] => false

/-- The moment that the first entry of a table spells out. -/
def momentOfEntries? : Table → Option Moment
  | (_, .leaf (.text s)) :: _ => Moment.ofText? s
  | _ => none

/-- Put an entry in its place among others that are in the order of their keys. -/
def insertEntry (key : String) (value : Value) : Table → Table
  | [] => [(key, value)]
  | (k, v) :: rest =>
    if key < k then (key, value) :: (k, v) :: rest else (k, v) :: insertEntry key value rest

mutual

/-- The settled value, if each table with the key of moments spells one out. -/
def Value.settle? : Value → Option Value
  | .leaf leaf => some (.leaf leaf)
  | .array items => (settleItems? items).map .array
  | .table entries =>
    if standsForMoment entries then
      (momentOfEntries? entries).map fun moment => .leaf (.moment moment)
    else (settleEntries? entries).map .table

/-- The items of a settled array. -/
def settleItems? : List Value → Option (List Value)
  | [] => some []
  | item :: rest => do
    let item ← item.settle?
    return item :: (← settleItems? rest)

/-- The entries of a settled table. -/
def settleEntries? : Table → Option Table
  | [] => some []
  | (key, value) :: rest => do
    let value ← value.settle?
    return insertEntry key value (← settleEntries? rest)

end

end Dataflow.Toml
