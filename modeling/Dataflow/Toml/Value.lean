import Dataflow.Binary64.Basic
import Dataflow.Toml.Moment

/-!
# Values of documents

A document is a table, and the entries of a table have different keys.
-/

namespace Dataflow.Toml

/-- A value without parts. -/
inductive Leaf where
  | text (value : String)
  | integer (value : Int)
  | float (value : Binary64)
  | boolean (value : Bool)
  | moment (value : Moment)
  deriving DecidableEq

/-- A value of a document. -/
inductive Value where
  | leaf (value : Leaf)
  | array (items : List Value)
  | table (entries : List (String × Value))

/-- The entries of a table. -/
abbrev Table := List (String × Value)

end Dataflow.Toml
