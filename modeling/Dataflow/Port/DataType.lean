/-!
# Types of ports

A port carries data of one named type, or has a sentinel in place of a type: it takes anything, it
carries no data, or its type is still to be found. The type of a flow-dependent port is found
together with that of all ports that share its tag; a port with an empty tag is on its own.
-/

namespace Dataflow

/-- The type of the data at a port. -/
inductive DataType where
  | concrete (name : String)
  | any
  | none
  | dataDependent
  | flowDependent (tag : String)
  deriving DecidableEq

namespace DataType

/-- The text of the sentinel for anything. -/
def anyText : String := "_any"

/-- The text of the sentinel for no data. -/
def noneText : String := "_none"

/-- The text of the sentinel for a type that the process finds out. -/
def dataDependentText : String := "_data_dependent"

/-- What the text of a flow-dependent type starts with; the rest is the tag. -/
def flowDependentHead : String := "_flow_dependent/"

/-- The text of a type. -/
def text : DataType → String
  | concrete name => name
  | any => anyText
  | none => noneText
  | dataDependent => dataDependentText
  | flowDependent tag => flowDependentHead ++ tag

/-- What is left of a list behind another one that it starts with. -/
def dropLead? : List Char → List Char → Option (List Char)
  | [], rest => some rest
  | _ :: _, [] => Option.none
  | a :: lead, b :: rest => if a = b then dropLead? lead rest else Option.none

theorem dropLead?_eq_some {lead cs rest : List Char} :
    dropLead? lead cs = some rest ↔ cs = lead ++ rest := by
  induction lead generalizing cs with
  | nil => exact Option.some_inj
  | cons a lead ih =>
    cases cs with
    | nil => simp [dropLead?]
    | cons b cs =>
      rw [dropLead?, List.cons_append, List.cons.injEq]
      split
      · rename_i heq
        rw [ih, and_iff_right heq.symm]
      · rename_i hne
        exact iff_of_false nofun fun h => hne h.1.symm

/-- The type that a text denotes. Every text denotes one. -/
def ofText (s : String) : DataType :=
  if s = anyText then any
  else if s = noneText then none
  else if s = dataDependentText then dataDependent
  else match dropLead? flowDependentHead.toList s.toList with
    | some tag => flowDependent (String.ofList tag)
    | Option.none => concrete s

/-- Whether the type is still to be found. -/
def isDependent : DataType → Bool
  | dataDependent | flowDependent _ => true
  | concrete _ | any | none => false

/-- Whether the type is a named one. -/
def isConcrete : DataType → Bool
  | concrete _ => true
  | any | none | dataDependent | flowDependent _ => false

/-- The tag by which ports find their type together. -/
def tag? : DataType → Option String
  | flowDependent tag => if tag = "" then Option.none else some tag
  | concrete _ | any | none | dataDependent => Option.none

/-- Whether data may pass between ports of the two types: only two different names forbid it. -/
def accepts : DataType → DataType → Bool
  | concrete a, concrete b => a == b
  | _, _ => true

/-- It does not matter which of the two ports is asked. -/
theorem accepts_comm (a b : DataType) : a.accepts b = b.accepts a := by
  cases a <;> cases b <;> simp [accepts, Bool.beq_comm]

end DataType

end Dataflow
