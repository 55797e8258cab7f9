import Dataflow.Toml.Lexeme
import Dataflow.Toml.Settled
import Dataflow.Toml.Tree

/-!
# Reading documents

A document is a sequence of lines: entries, headers of tables and of arrays of tables, comments and
empty lines. Its settled table is found, or nothing if the text is not a document.
-/

namespace Dataflow.Toml

open Text (Read mark?)

mutual

/-- A value. Each part takes up some of the text, so that `fuel` of twice its length is never used
up; `depth` is how many levels of nesting are left. -/
def value? (depth : Nat) : (fuel : Nat) → Read Value
  | 0, _ => none
  | fuel + 1, cs =>
    match cs with
    | '[' :: rest =>
      match depth with
      | 0 => none
      | depth + 1 => (items? depth fuel rest).map fun (items, left) => (.array items, left)
    | '\x7b' :: rest =>
      match depth with
      | 0 => none
      | depth + 1 => do
        let (entries, left) ←
          match skipSpace rest with
          | '\x7d' :: left => some ([], left)
          | cs => entries? depth fuel cs
        return (.table (← tableOfEntries? entries), left)
    | cs => (leaf? cs).map fun (leaf, left) => (.leaf leaf, left)

/-- The items of an array up to its closing bracket. A comma may follow the last one. -/
def items? (depth : Nat) : (fuel : Nat) → Read (List Value)
  | 0, _ => none
  | fuel + 1, cs => do
    match ← skipVoid? false cs with
    | ']' :: left => return ([], left)
    | cs =>
      let (item, cs) ← value? depth fuel cs
      match ← skipVoid? false cs with
      | ']' :: left => return ([item], left)
      | ',' :: cs =>
        let (items, left) ← items? depth fuel cs
        return (item :: items, left)
      | _ => none

/-- The entries of a table on one line up to its closing brace. -/
def entries? (depth : Nat) : (fuel : Nat) → Read (List ((List String × String) × Value))
  | 0, _ => none
  | fuel + 1, cs => do
    let (key, cs) ← key? cs
    let (value, cs) ← value? depth fuel (skipSpace (← mark? '=' cs))
    match skipSpace cs with
    | '\x7d' :: left => return ([(key, value)], left)
    | ',' :: cs =>
      let (entries, left) ← entries? depth fuel cs
      return ((key, value) :: entries, left)
    | _ => none

end

/-- A document as far as it was read: its tables, and the path of the header that is in force. -/
structure Progress where
  root : OpenTable
  header : List String

/-- A header between its brackets, each of them doubled for an array of tables. -/
def header? (double : Bool) : Read (List String × String) := fun cs => do
  let (key, cs) ← key? cs
  let cs ← mark? ']' cs
  let cs ← if double then mark? ']' cs else some cs
  return (key, ← lineEnd? cs)

/-- An entry on a line of its own. -/
def entry? : Read ((List String × String) × Value) := fun cs => do
  let (key, cs) ← key? cs
  let cs := skipSpace (← mark? '=' cs)
  let (value, cs) ← value? (nestingLimit - 1) (2 * cs.length + 2) cs
  return ((key, value), ← lineEnd? cs)

/-- What one line makes of a document. -/
def line? (p : Progress) : Read Progress := fun cs =>
  match skipSpace cs with
  | [] => some (p, [])
  | '\n' :: rest => some (p, rest)
  | '\r' :: '\n' :: rest => some (p, rest)
  | '#' :: rest => (lineEnd? ('#' :: rest)).map fun left => (p, left)
  | '[' :: '[' :: rest => do
    let ((path, key), left) ← header? true rest
    return (⟨← p.root.openItem path key, path ++ [key]⟩, left)
  | '[' :: rest => do
    let ((path, key), left) ← header? false rest
    return (⟨← p.root.openTable path key, path ++ [key]⟩, left)
  | cs => do
    let (((path, key), value), left) ← entry? cs
    let root ← p.root.descend false p.header fun t => t.addValue path key value
    return (⟨root, p.header⟩, left)

/-- The lines of a document up to its end. A line takes up some of the text, so that `fuel` of more
than its length is never used up. -/
def lines? : (fuel : Nat) → Progress → List Char → Option Progress
  | _, p, [] => some p
  | 0, _, _ :: _ => none
  | fuel + 1, p, cs => do
    let (p, left) ← line? p cs
    lines? fuel p left

/-- The settled table of a document. A byte order mark in front of it is skipped. -/
def parse? (s : String) : Option Table := do
  let cs := match s.toList with
    | '\ufeff' :: rest => rest
    | cs => cs
  let p ← lines? (cs.length + 1) ⟨.root, []⟩ cs
  settleEntries? (finishEntries p.root.entries)

end Dataflow.Toml
