/-!
# Readers of text

A reader takes a value off the front of a text and gives it together with what is left, or fails.
-/

namespace Dataflow.Text

/-- A reader of values. -/
abbrev Read (α : Type) := List Char → Option (α × List Char)

/-- The character `c` at the front, given what follows it. -/
def mark? (c : Char) : List Char → Option (List Char)
  | d :: rest => if d = c then some rest else none
  | [] => none

/-- Read items until one fails or takes up nothing. -/
def repeated {α : Type} (item : Read α) (cs : List Char) : List α × List Char :=
  match item cs with
  | none => ([], cs)
  | some (a, rest) =>
    if rest.length < cs.length then
      let (as, left) := repeated item rest
      (a :: as, left)
    else ([], cs)
termination_by cs.length

/-- The value of a hexadecimal digit. -/
def hexValue? (c : Char) : Option Nat :=
  if '0' ≤ c ∧ c ≤ '9' then some (c.toNat - '0'.toNat)
  else if 'a' ≤ c ∧ c ≤ 'f' then some (c.toNat - 'a'.toNat + 10)
  else if 'A' ≤ c ∧ c ≤ 'F' then some (c.toNat - 'A'.toNat + 10)
  else none

/-- The number that hexadecimal digits denote. -/
def hexNumber? (cs : List Char) : Option Nat :=
  cs.foldlM (fun acc c => (hexValue? c).map (acc * 16 + ·)) 0

end Dataflow.Text
