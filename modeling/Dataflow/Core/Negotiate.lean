import Dataflow.Core.Basic

/-!
# Negotiation of types

A type may be proposed for a port whose own type is still to be found. Accepting it settles the type
for the whole class of the port. Proposals that no process may accept are errors: after the
initialization, to ports that are not declared, and against a type that the declaration fixes.
-/

namespace Dataflow.Core

/-- Whether a proposal may be made at all. -/
def checkProposal (c : Core) (key : PortKey) (proposed : DataType) : Except ProcessError Unit :=
  if c.state = .initialized then .error (.typeSetLate c.name key.name)
  else match c.port? key with
    | none => .error (c.noPort key)
    | some port =>
      if (port.declared.isConcrete ∨ port.declared = .none) ∧ port.info.type ≠ proposed then
        .error (.staticTypeReset c.name key.name port.info.type proposed)
      else .ok ()

/-- Show a type at a port. -/
def retype (c : Core) (type : DataType) (key : PortKey) : Core :=
  c.modifyPort key fun port => { port with info := { port.info with type } }

/-- Settle a named type for a port and its class: whether the class takes it. -/
def settle (c : Core) (key : PortKey) (type : String) : Bool × Core :=
  let (settlement, groups) := c.groups.settle key type
  let c := { c with groups }
  match settlement with
  | .settled members => (true, members.foldl (retype · (.concrete type)) c)
  | .unchanged => (true, c.retype (.concrete type) key)
  | .conflict _ => (false, c)

/-- Propose a type for a port: whether it is accepted. A port that takes anything accepts every
named type and keeps its own. -/
def resolve (c : Core) (key : PortKey) (proposed : DataType) : Attempt Core Bool :=
  match c.checkProposal key proposed with
  | .error e => (.error e, c)
  | .ok () =>
    match c.port? key with
    | none => (.error (c.noPort key), c)
    | some port =>
      if port.info.type = proposed then (.ok true, c)
      else match proposed with
        | .concrete type =>
          if port.declared = .any then (.ok true, c)
          else if port.declared.isDependent = false then (.ok false, c)
          else if port.info.type.isConcrete then (.ok false, c)
          else
            let (accepted, c) := c.settle key type
            (.ok accepted, c)
        | _ => (.ok false, c)

end Dataflow.Core
