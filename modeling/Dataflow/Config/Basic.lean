import Dataflow.Json.Basic
import Dataflow.NameMap
import Dataflow.Reading

/-!
# Configurations

A configuration gives texts for keys. A colon in a key sets off the name of a block, so that the
keys of a block can be taken out of a configuration as one of their own.
-/

namespace Dataflow

/-- Texts for keys. -/
structure Config where
  values : NameMap String

namespace Config

/-- The key of the name of a process. -/
def nameKey : String := "_name"

/-- The key of the type of a process. -/
def typeKey : String := "_type"

/-- What sets off the name of a block in a key. -/
def separator : String := ":"

/-- The configuration without keys. -/
def empty : Config := ⟨∅⟩

instance : EmptyCollection Config := ⟨empty⟩

instance : DecidableEq Config := fun a b =>
  decidable_of_iff (a.values = b.values) ⟨fun h => by cases a; cases b; simp_all, congrArg values⟩

/-- The text of a key. -/
def get? (c : Config) (key : String) : Option String := c.values[key]?

/-- The configuration with a text for a key. -/
def set (c : Config) (key value : String) : Config := ⟨c.values.insert key value⟩

/-- The configuration without a key. -/
def unset (c : Config) (key : String) : Config := ⟨c.values.erase key⟩

/-- Whether a key has a text. -/
def has (c : Config) (key : String) : Bool := c.values.contains key

/-- The keys with their texts, in the order of the keys. -/
def toList (c : Config) : List (String × String) := c.values.toList

/-- The keys in their order. -/
def keys (c : Config) : List String := c.values.keys

/-- The number of keys. -/
def size (c : Config) : Nat := c.values.size

/-- The configuration of some keys with texts. Of two texts for a key the later one counts. -/
def ofList (pairs : List (String × String)) : Config :=
  pairs.foldl (fun c pair => c.set pair.1 pair.2) empty

/-- The configuration of a process with a name and a type. -/
def forProcess (name type : String) : Config := (empty.set nameKey name).set typeKey type

/-- A value of the text of a key, read as the reader wants it. -/
def lookup {α : Type} (c : Config) (read : String → Except ReadFault α) (key : String) :
    Except ConfigError α :=
  match c.get? key with
  | some raw => readSetting read key raw
  | none => .error (.unknownKey key)

/-- What is left of a key behind the name of a block and its separator. -/
def keyInBlock? (block key : String) : Option String :=
  (DataType.dropLead? (block ++ separator).toList key.toList).map String.ofList

/-- The keys of a block, without its name. -/
def subblock (c : Config) (block : String) : Config :=
  ofList (c.toList.filterMap fun pair => (keyInBlock? block pair.1).map fun key => (key, pair.2))

/-- One configuration over another: where both have a key, `upper` counts. -/
def merge (c upper : Config) : Config :=
  upper.toList.foldl (fun c pair => c.set pair.1 pair.2) c

/-- The document of a configuration. -/
def json (c : Config) : Json := .object (c.toList.map fun pair => (pair.1, .text pair.2))

@[simp] theorem get?_empty (key : String) : empty.get? key = none := by
  simp [empty, get?]

@[simp] theorem get?_set_self (c : Config) (key value : String) :
    (c.set key value).get? key = some value := by
  simp [get?, set]

theorem get?_set (c : Config) (key value other : String) :
    (c.set key value).get? other = if key = other then some value else c.get? other := by
  simp [get?, set, Std.ExtTreeMap.getElem?_insert]

/-- Configurations that give the same texts are equal. -/
theorem ext_get? {a b : Config} (h : ∀ key, a.get? key = b.get? key) : a = b := by
  obtain ⟨a⟩ := a
  obtain ⟨b⟩ := b
  exact congrArg Config.mk (Std.ExtTreeMap.ext_getElem? fun {key} => h key)

end Config

end Dataflow
