import Dataflow.Binary64.Shortest
import Dataflow.Config.Basic
import Dataflow.Json.Reader
import Dataflow.Toml.Document

/-!
# Configurations from documents and files

The tables of a document become blocks: the leaf at the end of a path of keys is stored under the
keys of the path, joined by the separator. Leaves are visited in the order of the keys of each
table, and where two leaves have one key the later one counts. Arrays have no place in a
configuration.
-/

namespace Dataflow.Config

/-- The key of an entry within a block. The outermost block has the empty name. -/
def joinKey (block key : String) : String :=
  if block = "" then key else block ++ separator ++ key

/-- The text of a leaf. -/
def leafText : Toml.Leaf → String
  | .text s => s
  | .integer n => toString n
  | .float x => x.text
  | .boolean b => if b then "true" else "false"
  | .moment m => m.text

/-- Why an array cannot be stored. -/
def arrayFault (key : String) : ConfigError :=
  .invalid ("arrays are not supported as configuration values (key '" ++ key ++ "')")

mutual

/-- Store a value under its full key: a leaf as it is, and a table entry by entry. -/
def storeValue (key : String) (value : Toml.Value) (c : Config) : Except ConfigError Config :=
  match value with
  | .leaf leaf => .ok (c.set key (leafText leaf))
  | .table entries => storeEntries key entries c
  | .array _ => .error (arrayFault key)

/-- Store the entries of a block, one after the other. -/
def storeEntries (block : String) (entries : List (String × Toml.Value)) (c : Config) :
    Except ConfigError Config :=
  match entries with
  | [] => .ok c
  | (key, value) :: rest =>
    match storeValue (joinKey block key) value c with
    | .ok c => storeEntries block rest c
    | .error e => .error e

end

/-- The configuration of a table. -/
def ofTable (table : Toml.Table) : Except ConfigError Config := storeEntries "" table empty

/-- The configuration of a document. -/
def ofToml (source : String) : Except ConfigError Config :=
  match Toml.parse? source with
  | some table => ofTable table
  | none => .error .malformedToml

/-- The configuration of a JSON object of strings. -/
def ofJson (source : String) : Except ConfigError Config :=
  match Json.textMembers? source with
  | some pairs => .ok (ofList pairs)
  | none => .error .malformedJson

/-- The files of a folder: the octets of each. -/
abbrev Folder := NameMap ByteArray

/-- The number of octets that the name of a file stays below. -/
def nameLimit : Nat := 4096

/-- The greatest number of octets of a part of a name. -/
def partLimit : Nat := 255

/-- The first part of a name that is more than a step within the folders that are there: not empty,
one dot, or two. -/
def firstStep? (name : String) : Option String :=
  (name.splitOn "/").find? fun part => part ≠ "" && part ≠ "." && part ≠ ".."

/-- Why a name that is not in the folder gives no text. Its parts are followed up to the first that
leads nowhere. -/
def absence (name : String) : FileFault :=
  if nameLimit ≤ name.utf8ByteSize then .nameTooLong
  else match firstStep? name with
    | some part => if partLimit < part.utf8ByteSize then .nameTooLong else .missing
    | none => if name = "" then .missing else .isFolder

/-- The text of a file of the folder. -/
def Folder.readText (folder : Folder) (name : String) : Except FileFault String :=
  if name.toList.contains '\x00' then .error .nulInName
  else match folder[name]? with
    | none => .error (absence name)
    | some octets =>
      match String.fromUTF8? octets with
      | some text => .ok text
      | none => .error .notText

/-- The configuration of a document in a file. -/
def load (folder : Folder) (name : String) : Except ConfigError Config :=
  match folder.readText name with
  | .error fault => .error (.inContext ("Failed to read config file " ++ name) (.file fault))
  | .ok source =>
    (ofToml source).mapError (.inContext ("Failed to parse config file " ++ name))

end Dataflow.Config
