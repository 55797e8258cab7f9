/-!
# Forests of slots

A forest keeps slots in disjoint classes. Every slot has a parent; a slot that is its own parent is
a root and stands for its class. The root also holds the *pin*, the type that the class has found.
Classes are joined by rank, and looking up a root shortens the path to it.
-/

namespace Dataflow

/-- A place in a forest. -/
structure Slot where
  val : UInt32
  deriving DecidableEq

namespace Slot

/-- The place as a position in the forest. -/
def index (slot : Slot) : Nat := slot.val.toNat

/-- The slot at a position. -/
def ofIndex (n : Nat) : Slot := ⟨.ofNat n⟩

/-- The diagnostic text of a slot. -/
def debug (slot : Slot) : String := "PortSlot(" ++ toString slot.index ++ ")"

end Slot

namespace Forest

/-- What is known of one slot. The rank bounds the height of the tree below it. -/
structure Node where
  parent : Slot
  rank : UInt8
  pin : Option String
  deriving DecidableEq

end Forest

/-- Slots in disjoint classes. -/
structure Forest where
  nodes : Array Forest.Node
  deriving DecidableEq

namespace Forest

/-- The forest without slots. -/
def empty : Forest := ⟨#[]⟩

/-- The number of slots. -/
def size (f : Forest) : Nat := f.nodes.size

/-- The parent of a slot. -/
def parent (f : Forest) (slot : Slot) : Slot := (f.nodes[slot.index]?).elim slot Node.parent

/-- The rank of a slot. -/
def rank (f : Forest) (slot : Slot) : UInt8 := (f.nodes[slot.index]?).elim 0 Node.rank

/-- The pin that a slot holds. -/
def pin (f : Forest) (slot : Slot) : Option String := (f.nodes[slot.index]?).bind Node.pin

/-- Change what is known of a slot. -/
def modify (f : Forest) (slot : Slot) (change : Node → Node) : Forest :=
  ⟨f.nodes.modify slot.index change⟩

/-- Add a slot in a class of its own. -/
def grow (f : Forest) : Slot × Forest :=
  let slot := Slot.ofIndex f.size
  (slot, ⟨f.nodes.push ⟨slot, 0, none⟩⟩)

/-- Go from parent to parent, `steps` times at most, until a root is met. -/
def climb (f : Forest) : Nat → Slot → Slot
  | 0, slot => slot
  | steps + 1, slot =>
    let parent := f.parent slot
    if parent = slot then slot else climb f steps parent

/-- The root above a slot. No path is longer than there are slots. -/
def root (f : Forest) (slot : Slot) : Slot := f.climb f.size slot

/-- Hang the slots on the path from `slot` directly below `top`, `steps` of them at most. -/
def shorten (f : Forest) (top : Slot) : Nat → Slot → Forest
  | 0, _ => f
  | steps + 1, slot =>
    let parent := f.parent slot
    if parent = top then f
    else (f.modify slot fun node => { node with parent := top }).shorten top steps parent

/-- The root above a slot, and the forest with the path shortened. -/
def find (f : Forest) (slot : Slot) : Slot × Forest :=
  let top := f.root slot
  (top, f.shorten top f.size slot)

/-- Hang the root `low` below the root `high`. The pin of `low` is kept if `high` has none. -/
def hang (f : Forest) (high low : Slot) : Forest :=
  let hung := f.modify low fun node => { node with parent := high }
  let ranked :=
    if f.rank high = f.rank low then
      hung.modify high fun node => { node with rank := node.rank + 1 }
    else hung
  if (f.pin high).isNone then
    (ranked.modify high fun node => { node with pin := f.pin low }).modify low
      fun node => { node with pin := none }
  else ranked

/-- Join the classes of two slots. The root of the lower rank goes below the other. -/
def union (f : Forest) (a b : Slot) : Forest :=
  let (rootA, f) := f.find a
  let (rootB, f) := f.find b
  if rootA = rootB then f
  else if f.rank rootB ≤ f.rank rootA then f.hang rootA rootB
  else f.hang rootB rootA

/-- Pin a type on a root. -/
def setPin (f : Forest) (root : Slot) (type : String) : Forest :=
  f.modify root fun node => { node with pin := some type }

end Forest

end Dataflow
