import Dataflow.Groups.Forest
import Dataflow.NameMap
import Dataflow.Port.Key

/-!
# Groups of ports that find their type together

Every declared port has a slot in a forest. Ports that share a tag are in one class, a port without
a tag is in a class of its own. When a type is settled for one port, it is pinned on the class for
good: all members have it, and so will all that join later.
-/

namespace Dataflow

/-- The groups of the ports of a process. -/
structure Groups where
  forest : Forest
  slots : Std.ExtTreeMap PortKey Slot compare
  /-- One slot for every tag that was ever used. -/
  tags : NameMap Slot

namespace Groups

/-- What became of a type that was proposed for a class. -/
inductive Settlement where
  /-- The type is now pinned on the class, whose members are these. -/
  | settled (members : List PortKey)
  /-- The class already had this type, or there is no such port. -/
  | unchanged
  /-- The class has another type. -/
  | conflict (pinned : String)
  deriving DecidableEq

/-- No ports. -/
def empty : Groups := ⟨.empty, ∅, ∅⟩

instance : EmptyCollection Groups := ⟨empty⟩

/-- The slot of a port. -/
def slot? (g : Groups) (key : PortKey) : Option Slot := g.slots[key]?

/-- Give a port a slot, in the class of its tag if it has one. -/
def join (g : Groups) (key : PortKey) (tag? : Option String) : Slot × Groups :=
  let (slot, forest) := g.forest.grow
  let slots := g.slots.insert key slot
  match tag? with
  | none => (slot, ⟨forest, slots, g.tags⟩)
  | some tag =>
    match g.tags[tag]? with
    | some first => (slot, ⟨forest.union first slot, slots, g.tags⟩)
    | none => (slot, ⟨forest, slots, g.tags.insert tag slot⟩)

/-- Forget a port. Its class keeps its type. -/
def leave (g : Groups) (key : PortKey) : Groups := { g with slots := g.slots.erase key }

/-- The root of the class of a slot. -/
def find (g : Groups) (slot : Slot) : Slot × Groups :=
  let (root, forest) := g.forest.find slot
  (root, { g with forest })

/-- The type pinned on the class of a slot. -/
def pinOfSlot (g : Groups) (slot : Slot) : Option String × Groups :=
  let (root, g) := g.find slot
  (g.forest.pin root, g)

/-- The type pinned on the class of a port. -/
def pin (g : Groups) (key : PortKey) : Option String × Groups :=
  match g.slot? key with
  | some slot => g.pinOfSlot slot
  | none => (none, g)

/-- The type pinned on the class of a tag. -/
def pinOfTag (g : Groups) (tag : String) : Option String × Groups :=
  match g.tags[tag]? with
  | some slot => g.pinOfSlot slot
  | none => (none, g)

/-- The ports among some whose root is the given one. -/
def gather (root : Slot) : List (PortKey × Slot) → Forest → List PortKey × Forest
  | [], forest => ([], forest)
  | (key, slot) :: rest, forest =>
    let (top, forest) := forest.find slot
    let (keys, forest) := gather root rest forest
    (if top = root then key :: keys else keys, forest)

/-- The ports in the class of a port, in their order. -/
def members (g : Groups) (key : PortKey) : List PortKey × Groups :=
  match g.slot? key with
  | none => ([], g)
  | some slot =>
    let (root, g) := g.find slot
    let (keys, forest) := gather root g.slots.toList g.forest
    (keys, { g with forest })

/-- Propose a type for the class of a port. -/
def settle (g : Groups) (key : PortKey) (type : String) : Settlement × Groups :=
  match g.slot? key with
  | none => (.unchanged, g)
  | some slot =>
    let (root, g) := g.find slot
    match g.forest.pin root with
    | some pinned => (if pinned = type then .unchanged else .conflict pinned, g)
    | none =>
      let (keys, g) := { g with forest := g.forest.setPin root type }.members key
      (.settled keys, g)

end Groups

end Dataflow
