/-!
# Names of ports

The inputs of a process have names of their own, and so have its outputs: a port is told by its
direction and its name together. Inputs come before outputs, and the ports of a direction come in
the order of their names.
-/

namespace Dataflow

/-- Which way data goes through a port. -/
inductive Direction where
  | input
  | output
  deriving DecidableEq

namespace Direction

/-- Both directions, in their order. -/
def all : List Direction := [input, output]

/-- The text of a direction. -/
def text : Direction → String
  | input => "input"
  | output => "output"

/-- The name of a direction in diagnostic texts. -/
def title : Direction → String
  | input => "Input"
  | output => "Output"

/-- The direction with a text. -/
def ofText? (s : String) : Option Direction := all.find? fun direction => direction.text = s

end Direction

/-- The name of a port within its process. -/
structure PortKey where
  direction : Direction
  name : String
  deriving DecidableEq

namespace PortKey

/-- The key of an input. -/
abbrev input (name : String) : PortKey := ⟨.input, name⟩

/-- The key of an output. -/
abbrev output (name : String) : PortKey := ⟨.output, name⟩

/-- The direction as a number: inputs first. -/
def rank (key : PortKey) : Nat :=
  match key.direction with
  | .input => 0
  | .output => 1

instance : Ord PortKey := ⟨compareLex (compareOn rank) (compareOn name)⟩

instance : Std.TransOrd PortKey :=
  inferInstanceAs (Std.TransCmp (compareLex (compareOn rank) (compareOn name)))

instance : Std.LawfulEqOrd PortKey where
  eq_of_compare {a b} h := by
    have h : compareLex (compareOn rank) (compareOn name) a b = .eq := h
    rw [compareLex_eq_eq] at h
    obtain ⟨hrank, hname⟩ := h
    have hrank : a.rank = b.rank := Std.LawfulEqOrd.eq_of_compare hrank
    have hname : a.name = b.name := Std.LawfulEqOrd.eq_of_compare hname
    obtain ⟨da, na⟩ := a
    obtain ⟨db, nb⟩ := b
    cases da <;> cases db <;> simp_all [rank]

end PortKey

end Dataflow
