/-!
# Flags of ports

A flag is a promise or a demand that comes with a port. A set of flags is told by its members, and
lists them in one fixed order.
-/

namespace Dataflow

/-- A promise or a demand that comes with a port. -/
inductive Flag where
  | required
  | static
  | mutable
  | nodep
  | const
  | shared
  deriving DecidableEq

namespace Flag

/-- All flags, in their order. -/
def all : List Flag := [required, static, mutable, nodep, const, shared]

/-- The text of a flag. -/
def text : Flag → String
  | required => "_required"
  | static => "_static"
  | mutable => "_mutable"
  | nodep => "_nodep"
  | const => "_const"
  | shared => "_shared"

/-- The name of a flag in diagnostic texts. -/
def title : Flag → String
  | required => "Required"
  | static => "InputStatic"
  | mutable => "InputMutable"
  | nodep => "InputNoDep"
  | const => "OutputConst"
  | shared => "OutputShared"

/-- The flag with a text. -/
def ofText? (s : String) : Option Flag := all.find? fun flag => flag.text = s

/-- Reading is the inverse of writing. -/
theorem ofText?_text (flag : Flag) : ofText? flag.text = some flag := by
  cases flag <;> decide

end Flag

/-- A set of flags. -/
structure Flags where
  required : Bool := false
  static : Bool := false
  mutable : Bool := false
  nodep : Bool := false
  const : Bool := false
  shared : Bool := false
  deriving DecidableEq

namespace Flags

/-- The set without members. -/
def empty : Flags := {}

instance : EmptyCollection Flags := ⟨empty⟩

/-- Whether a flag is in the set. -/
def contains (flags : Flags) : Flag → Bool
  | .required => flags.required
  | .static => flags.static
  | .mutable => flags.mutable
  | .nodep => flags.nodep
  | .const => flags.const
  | .shared => flags.shared

/-- The set with one more flag. -/
def insert (flags : Flags) : Flag → Flags
  | .required => { flags with required := true }
  | .static => { flags with static := true }
  | .mutable => { flags with mutable := true }
  | .nodep => { flags with nodep := true }
  | .const => { flags with const := true }
  | .shared => { flags with shared := true }

/-- The set of the flags of a list. -/
def ofList (flags : List Flag) : Flags := flags.foldl insert empty

/-- The members, in the order of the flags. -/
def toList (flags : Flags) : List Flag := Flag.all.filter flags.contains

/-- Whether the set has no members. -/
def isEmpty (flags : Flags) : Bool := flags == empty

@[simp] theorem contains_empty (flag : Flag) : empty.contains flag = false := by
  cases flag <;> rfl

@[simp] theorem contains_insert (flags : Flags) (a b : Flag) :
    (flags.insert a).contains b = (decide (a = b) || flags.contains b) := by
  cases a <;> cases b <;> simp [insert, contains]

end Flags

end Dataflow
