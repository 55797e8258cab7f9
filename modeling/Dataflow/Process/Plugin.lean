import Dataflow.Hook

/-!
# Plugins

A plugin makes a process of a core: it holds a hook for every turn of the life of the process. It
also tells what a scheduler should know of the process.
-/

namespace Dataflow

/-- What a scheduler should know of a process. -/
inductive Property where
  | noThreads
  | noReentrancy
  | unsyncInput
  | unsyncOutput
  deriving DecidableEq

namespace Property

/-- All properties, in their order. -/
def all : List Property := [noThreads, noReentrancy, unsyncInput, unsyncOutput]

/-- The text of a property. -/
def text : Property → String
  | noThreads => "_no_thread"
  | noReentrancy => "_no_reentrant"
  | unsyncInput => "_unsync_input"
  | unsyncOutput => "_unsync_output"

/-- The name of a property in diagnostic texts. -/
def title : Property → String
  | noThreads => "NoThreads"
  | noReentrancy => "NoReentrancy"
  | unsyncInput => "UnsyncInput"
  | unsyncOutput => "UnsyncOutput"

/-- The property with a text. -/
def ofText? (s : String) : Option Property := all.find? fun property => property.text = s

end Property

/-- A set of properties. -/
structure Properties where
  noThreads : Bool := false
  noReentrancy : Bool := false
  unsyncInput : Bool := false
  unsyncOutput : Bool := false
  deriving DecidableEq

namespace Properties

/-- The set without members. -/
def empty : Properties := {}

instance : EmptyCollection Properties := ⟨empty⟩

/-- Whether a property is in the set. -/
def contains (properties : Properties) : Property → Bool
  | .noThreads => properties.noThreads
  | .noReentrancy => properties.noReentrancy
  | .unsyncInput => properties.unsyncInput
  | .unsyncOutput => properties.unsyncOutput

/-- The set with one more property. -/
def insert (properties : Properties) : Property → Properties
  | .noThreads => { properties with noThreads := true }
  | .noReentrancy => { properties with noReentrancy := true }
  | .unsyncInput => { properties with unsyncInput := true }
  | .unsyncOutput => { properties with unsyncOutput := true }

/-- The set of the properties of a list. -/
def ofList (properties : List Property) : Properties := properties.foldl insert empty

/-- The members, in the order of the properties. -/
def toList (properties : Properties) : List Property := Property.all.filter properties.contains

@[simp] theorem contains_insert (properties : Properties) (a b : Property) :
    (properties.insert a).contains b = (decide (a = b) || properties.contains b) := by
  cases a <;> cases b <;> simp [insert, contains]

end Properties

/-- The hooks of a process. -/
structure Plugin (σ : Type) where
  /-- Declare ports and keys. Runs once, when the process is made. -/
  declare : Reaction σ Unit
  /-- Look at the configuration, and find types that depend on it. -/
  configure : Reaction σ Unit
  /-- Look at the bound edges before the first step. -/
  init : Reaction σ Unit
  /-- Take the inputs of one step, and send its results. -/
  step : Reaction σ Unit
  /-- Forget the run. The edges are unbound already. -/
  reset : Reaction σ Unit
  /-- Look at an update. What is tunable of it is applied already. -/
  reconfigure : Config → Reaction σ Unit
  /-- What a scheduler should know. -/
  properties : σ → Properties
  /-- Accept or refuse a type that is proposed for a port. -/
  proposeType : PortKey → DataType → Reaction σ Bool

namespace Plugin

/-- A plugin that does nothing of its own: types are settled as the core sees fit. -/
def idle (σ : Type) : Plugin σ where
  declare := pure ()
  configure := pure ()
  init := pure ()
  step := pure ()
  reset := pure ()
  reconfigure := fun _ => pure ()
  properties := fun _ => .empty
  proposeType := fun key proposed => Reaction.request (.resolve key proposed)

end Plugin

end Dataflow
