import Dataflow.Toml.Value

/-!
# Building tables

Headers and dotted keys add to a tree of tables. Every table remembers where it comes from, since
that decides what may still be added to it: a header opens a table once, a dotted key adds only to
tables that dotted keys have made, and nothing is added to a value. Entries stand in the order in
which they come to be; a table that was made for a table within it comes to be by its own header.
-/

namespace Dataflow.Toml

/-- Where a table comes from: its own header, the header of a table within it, or a dotted key. -/
inductive Origin where
  | header
  | implicit
  | dotted
  deriving DecidableEq

/-- A tree under construction. A series is an array of tables, of which the last is still open. -/
inductive Node where
  | value (value : Value)
  | table (origin : Origin) (entries : List (String × Node))
  | series (closed : List (List (String × Node))) (last : List (String × Node))

/-- Put an entry in the place of the one of the same key, or at the end if there is none. -/
def putEntry {α : Type} (key : String) (value : α) : List (String × α) → List (String × α)
  | [] => [(key, value)]
  | (k, v) :: rest => if k = key then (key, value) :: rest else (k, v) :: putEntry key value rest

/-- A table under construction. -/
structure OpenTable where
  origin : Origin
  entries : List (String × Node)

namespace OpenTable

/-- A table that may be added to by any key. -/
def root : OpenTable := ⟨.header, []⟩

/-- The node under a key. -/
def find? (t : OpenTable) (key : String) : Option Node := t.entries.lookup key

/-- The table with a node under a key: in the place of the node that was there, else at the end. -/
def put (t : OpenTable) (key : String) (node : Node) : OpenTable :=
  { t with entries := putEntry key node t.entries }

/-- The table with a node under a key at the end, whatever was under the key. -/
def putLast (t : OpenTable) (key : String) (node : Node) : OpenTable :=
  { t with entries := t.entries.filter (fun entry => entry.1 ≠ key) ++ [(key, node)] }

/-- The table as a node. -/
def node (t : OpenTable) : Node := .table t.origin t.entries

/-- Change the table at the end of a path. Tables that are missing on the way are made. -/
def descend (dotted : Bool) : List String → (OpenTable → Option OpenTable) → OpenTable →
    Option OpenTable
  | [], change, t => change t
  | key :: path, change, t =>
    match t.find? key with
    | none => do
      let child ← descend dotted path change ⟨if dotted then .dotted else .implicit, []⟩
      return t.put key child.node
    | some (.value _) => none
    | some (.series closed last) => do
      let child ← descend dotted path change ⟨.header, last⟩
      return t.put key (.series closed child.entries)
    | some (.table origin entries) =>
      if dotted ∧ origin = .header then none
      else do
        let child ← descend dotted path change ⟨origin, entries⟩
        return t.put key child.node

/-- Add a value under a key that is at the end of a dotted path. -/
def addValue (path : List String) (key : String) (value : Value) (t : OpenTable) :
    Option OpenTable :=
  t.descend true path fun t =>
    if (t.origin == .dotted) = path.isEmpty ∨ (t.find? key).isSome then none
    else some (t.put key (.value value))

/-- Open the table of a header. -/
def openTable (path : List String) (key : String) (t : OpenTable) : Option OpenTable :=
  t.descend false path fun t =>
    match t.find? key with
    | none => some (t.put key (.table .header []))
    | some (.table .implicit entries) => some (t.putLast key (.table .header entries))
    | some _ => none

/-- Open one more table of an array of tables. -/
def openItem (path : List String) (key : String) (t : OpenTable) : Option OpenTable :=
  t.descend false path fun t =>
    match t.find? key with
    | none => some (t.put key (.series [] []))
    | some (.series closed last) => some (t.put key (.series (closed ++ [last]) []))
    | some _ => none

end OpenTable

mutual

/-- The value of a finished node. -/
def Node.finish : Node → Value
  | .value value => value
  | .table _ entries => .table (finishEntries entries)
  | .series closed last => .array (finishItems closed ++ [.table (finishEntries last)])

/-- The entries of a finished table. -/
def finishEntries : List (String × Node) → Table
  | [] => []
  | (key, node) :: rest => (key, node.finish) :: finishEntries rest

/-- The tables of a finished series. -/
def finishItems : List (List (String × Node)) → List Value
  | [] => []
  | entries :: rest => .table (finishEntries entries) :: finishItems rest

end

/-- The table of some entries with dotted keys. -/
def tableOfEntries? (entries : List ((List String × String) × Value)) : Option Table := do
  let t ← entries.foldlM (fun t ((path, key), value) => t.addValue path key value) OpenTable.root
  return finishEntries t.entries

end Dataflow.Toml
