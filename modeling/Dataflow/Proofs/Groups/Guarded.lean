import Dataflow.Proofs.Groups.Classes
import Dataflow.Proofs.Groups.Ranks

/-!
# Guarded operations on groups

A look-up in a forest, and all that is built on it, is defined here for a second time, one access
after the other. A guarded operation has no result when something is read or written at a place beyond
the forest, when a path to a root does not end, when a look-up would have to hang a slot anew, when a
rank would become too large for its eight bits, or when the second of two slots to be joined has a
pin. In a flat forest with low ranks every guarded operation has a result, and it is that of the
operation.
-/

namespace Dataflow

namespace Forest

/-- What is known of a slot, if it is in the forest. -/
def node? (f : Forest) (slot : Slot) : Option Node := f.nodes[slot.index]?

/-- Change what is known of a slot, if it is in the forest. -/
def modify? (f : Forest) (slot : Slot) (change : Node → Node) : Option Forest :=
  if f.Has slot then some (f.modify slot change) else none

/-- Go from parent to parent until a root is met, if there are no more than `steps` slots on the
way. -/
def climb? (f : Forest) : Nat → Slot → Option Slot
  | 0, _ => none
  | steps + 1, slot => do
    let node ← f.node? slot
    if node.parent = slot then some slot else climb? f steps node.parent

/-- The root above a slot, if no slot on the way has to be hung anew. -/
def find? (f : Forest) (slot : Slot) : Option Slot := do
  let top ← f.climb? f.size slot
  let node ← f.node? slot
  if node.parent = top then some top else none

/-- Raise the rank of `high` above that of `low`, if it is the same and there is a higher one. -/
def raise? (f : Forest) (high low : Slot) : Option Forest := do
  let upper ← f.node? high
  let lower ← f.node? low
  if upper.rank = lower.rank then
    if upper.rank.toNat + 1 < UInt8.size then
      f.modify? high fun node => { node with rank := node.rank + 1 }
    else none
  else some f

/-- Hand the pin of `low` over to `high`, if that has none. -/
def handOver? (f : Forest) (high low : Slot) : Option Forest := do
  let upper ← f.node? high
  if upper.pin.isNone then
    let lower ← f.node? low
    let after ← f.modify? high fun node => { node with pin := lower.pin }
    after.modify? low fun node => { node with pin := none }
  else some f

/-- Hang the root `low` below the root `high`. -/
def hang? (f : Forest) (high low : Slot) : Option Forest := do
  let hung ← f.modify? low fun node => { node with parent := high }
  let ranked ← hung.raise? high low
  ranked.handOver? high low

/-- Join the classes of two slots, if neither the second one nor its root has a pin. -/
def union? (f : Forest) (a b : Slot) : Option Forest := do
  let second ← f.node? b
  let rootA ← f.find? a
  let rootB ← f.find? b
  let upper ← f.node? rootA
  let lower ← f.node? rootB
  if (second.pin.or lower.pin).isSome then none
  else if rootA = rootB then some f
  else if lower.rank ≤ upper.rank then f.hang? rootA rootB
  else f.hang? rootB rootA

/-! ## Where they have results -/

theorem node?_eq {f : Forest} {slot : Slot} (has : f.Has slot) :
    f.node? slot = some ⟨f.parent slot, f.rank slot, f.pin slot⟩ := by
  obtain ⟨node, hnode⟩ := node_of_has has
  simp only [node?, parent, rank, pin, hnode, Option.elim_some, Option.bind_some]

theorem modify?_eq {f : Forest} {slot : Slot} (has : f.Has slot) (change : Node → Node) :
    f.modify? slot change = some (f.modify slot change) :=
  if_pos has

theorem climb?_root {f : Forest} {slot : Slot} (has : f.Has slot) (top : f.parent slot = slot)
    (steps : Nat) : f.climb? (steps + 1) slot = some slot := by
  simp only [climb?, node?_eq has, Option.bind_eq_bind, Option.bind_some, if_pos top]

theorem Flat.climb?_eq {f : Forest} (flat : f.Flat) {slot : Slot} (has : f.Has slot) :
    f.climb? f.size slot = some (f.parent slot) := by
  obtain ⟨steps, hsize⟩ := Nat.exists_eq_succ_of_ne_zero (Nat.ne_zero_of_lt has)
  by_cases top : f.parent slot = slot
  · rw [hsize, climb?_root has top, top]
  · -- The slot and its parent are two slots, so that the bound allows for two.
    have hasTop := flat.has_parent slot has
    obtain ⟨steps, rfl⟩ : ∃ more, steps = more + 1 := by
      have hne : (f.parent slot).index ≠ slot.index := fun h => top (Slot.index_inj h)
      rw [Has] at has hasTop
      exact Nat.exists_eq_succ_of_ne_zero (by omega)
    rw [hsize, climb?]
    simp only [node?_eq has, Option.bind_eq_bind, Option.bind_some, if_neg top]
    exact climb?_root hasTop (flat.parent_parent slot) steps

theorem Flat.find?_eq {f : Forest} (flat : f.Flat) {slot : Slot} (has : f.Has slot) :
    f.find? slot = some (f.parent slot) := by
  simp only [find?, flat.climb?_eq has, node?_eq has, Option.bind_eq_bind, Option.bind_some, if_pos]

/-- The path from the first slot to the third has to be shortened. -/
example : (⟨#[⟨⟨1⟩, 0, none⟩, ⟨⟨2⟩, 1, none⟩, ⟨⟨2⟩, 2, none⟩]⟩ : Forest).find? ⟨0⟩ = none := by decide

theorem raise?_eq {f : Forest} {high low : Slot} (hhigh : f.Has high) (hlow : f.Has low)
    (few : (f.rank high).toNat + 1 < UInt8.size) : f.raise? high low = some (f.raise high low) := by
  simp only [raise?, raise, node?_eq hhigh, node?_eq hlow, modify?_eq hhigh, Option.bind_eq_bind,
    Option.bind_some, if_pos few]
  split <;> rfl

theorem handOver?_eq {f : Forest} {high low : Slot} (hhigh : f.Has high) (hlow : f.Has low) :
    f.handOver? high low = some (f.handOver high low) := by
  simp only [handOver?, handOver, node?_eq hhigh, node?_eq hlow, modify?_eq hhigh,
    modify?_eq (has_modify.mpr hlow), Option.bind_eq_bind, Option.bind_some]
  split <;> rfl

theorem hang?_eq {f : Forest} {high low : Slot} (hhigh : f.Has high) (hlow : f.Has low)
    (few : (f.rank high).toNat + 1 < UInt8.size) : f.hang? high low = some (f.hang high low) := by
  let hung := f.modify low fun node => { node with parent := high }
  have hhung {slot : Slot} (has : f.Has slot) : hung.Has slot := has_modify.mpr has
  have hranked {slot : Slot} (has : f.Has slot) : (hung.raise high low).Has slot := by
    rw [Has, size_raise]
    exact hhung has
  have hraise : hung.raise? high low = some (hung.raise high low) :=
    raise?_eq (hhung hhigh) (hhung hlow) (by rwa [rank_setParent])
  rw [hang?, modify?_eq hlow, Option.bind_eq_bind, Option.bind_some, hraise, Option.bind_some,
    handOver?_eq (hranked hhigh) (hranked hlow), hang_eq]

/-- A new slot has no pin, and its rank leads to no rank that is too large. -/
theorem union?_grow {f : Forest} (flat : f.Flat) (few : f.size < UInt32.size) {top : Slot}
    (htop : f.Has top) (hroot : f.parent top = top) (low : (f.rank top).toNat + 1 < UInt8.size) :
    f.grow.2.union? top f.grow.1 = some (f.grow.2.union top f.grow.1) := by
  have hout := not_has_grow few
  have htop' : f.grow.2.Has top := has_grow_of_has htop
  have hne : top ≠ f.grow.1 := fun h => hout (h ▸ htop)
  have hnew : f.grow.2.Has f.grow.1 := has_grow f
  simp only [union?, node?_eq hnew, node?_eq htop', flat.grow.find?_eq hnew, flat.grow.find?_eq htop',
    parent_grow, pin_grow, parent_of_not_has hout, pin_of_not_has hout, hroot, Option.bind_eq_bind,
    Option.bind_some, Option.or_self, Option.isSome_none, Bool.false_eq_true, if_false, if_neg hne,
    rank_grow_self few]
  rw [if_pos (UInt8.le_iff_toNat_le.mpr (Nat.zero_le _)), union_grow flat few htop hroot]
  exact hang?_eq htop' hnew (by rwa [rank_grow])

end Forest

namespace Groups

/-- Give a port a slot, in the class of its tag if it has one. -/
def join? (g : Groups) (key : PortKey) (tag? : Option String) : Option (Slot × Groups) :=
  let (slot, forest) := g.forest.grow
  let slots := g.slots.insert key slot
  match tag? with
  | none => some (slot, ⟨forest, slots, g.tags⟩)
  | some tag =>
    match g.tags[tag]? with
    | some first => do
      let joined ← forest.union? first slot
      return (slot, ⟨joined, slots, g.tags⟩)
    | none => some (slot, ⟨forest, slots, g.tags.insert tag slot⟩)

/-- The root of the class of a slot. The groups stay as they are. -/
def find? (g : Groups) (slot : Slot) : Option (Slot × Groups) := do
  let root ← g.forest.find? slot
  return (root, g)

/-- The type pinned on the class of a slot. -/
def pinOfSlot? (g : Groups) (slot : Slot) : Option (Option String × Groups) := do
  let (root, g) ← g.find? slot
  let node ← g.forest.node? root
  return (node.pin, g)

/-- The type pinned on the class of a port. -/
def pin? (g : Groups) (key : PortKey) : Option (Option String × Groups) :=
  match g.slot? key with
  | some slot => g.pinOfSlot? slot
  | none => some (none, g)

/-- The type pinned on the class of a tag. -/
def pinOfTag? (g : Groups) (tag : String) : Option (Option String × Groups) :=
  match g.tags[tag]? with
  | some slot => g.pinOfSlot? slot
  | none => some (none, g)

/-- The ports among some whose root is the given one. -/
def gather? (root : Slot) (f : Forest) : List (PortKey × Slot) → Option (List PortKey)
  | [] => some []
  | (key, slot) :: rest => do
    let top ← f.find? slot
    let keys ← gather? root f rest
    return if top = root then key :: keys else keys

/-- The ports in the class of a port, in their order. -/
def members? (g : Groups) (key : PortKey) : Option (List PortKey × Groups) :=
  match g.slot? key with
  | none => some ([], g)
  | some slot => do
    let (root, g) ← g.find? slot
    let keys ← gather? root g.forest g.slots.toList
    return (keys, g)

/-- Propose a type for the class of a port. -/
def settle? (g : Groups) (key : PortKey) (type : String) : Option (Settlement × Groups) :=
  match g.slot? key with
  | none => some (.unchanged, g)
  | some slot => do
    let (root, g) ← g.find? slot
    let node ← g.forest.node? root
    match node.pin with
    | some pinned => return (if pinned = type then .unchanged else .conflict pinned, g)
    | none => do
      let forest ← g.forest.modify? root fun node => { node with pin := some type }
      let (keys, g) ← { g with forest }.members? key
      return (.settled keys, g)

/-! ## Where these have results -/

section

variable {g : Groups} (flat : g.forest.Flat)

include flat

theorem join?_eq (few : g.forest.size < UInt32.size)
    (tops : ∀ {tag : String} {top}, g.tags[tag]? = some top →
      g.forest.Has top ∧ g.forest.parent top = top)
    (low : ∀ slot, (g.forest.rank slot).toNat + 1 < UInt8.size) (key : PortKey)
    (tag? : Option String) : g.join? key tag? = some (g.join key tag?) := by
  cases tag? with
  | none => rfl
  | some tag =>
    simp only [join?, join]
    cases htag : g.tags[tag]? with
    | none => rfl
    | some top =>
      obtain ⟨htop, hroot⟩ := tops htag
      simp only [Forest.union?_grow flat few htop hroot (low top), Option.bind_eq_bind,
        Option.bind_some, Option.pure_def]

theorem find?_eq {slot : Slot} (has : g.forest.Has slot) : g.find? slot = some (g.find slot) := by
  rw [find?, flat.find?_eq has, find_eq flat]
  rfl

theorem pinOfSlot?_eq {slot : Slot} (has : g.forest.Has slot) :
    g.pinOfSlot? slot = some (g.pinOfSlot slot) := by
  simp only [pinOfSlot?, find?_eq flat has, pinOfSlot_eq flat, find_eq flat,
    Forest.node?_eq (flat.has_parent slot has), Option.bind_eq_bind, Option.bind_some, Option.pure_def]

theorem pinOfTag?_eq (tops : ∀ {tag : String} {top}, g.tags[tag]? = some top → g.forest.Has top)
    (tag : String) : g.pinOfTag? tag = some (g.pinOfTag tag) := by
  rw [pinOfTag?, pinOfTag]
  cases htag : g.tags[tag]? with
  | none => rfl
  | some top => exact pinOfSlot?_eq flat (tops htag)

theorem gather?_eq (root : Slot) {ports : List (PortKey × Slot)}
    (has : ∀ port ∈ ports, g.forest.Has port.2) :
    gather? root g.forest ports = some (gather root ports g.forest).1 := by
  induction ports with
  | nil => rfl
  | cons port rest ih =>
    obtain ⟨key, slot⟩ := port
    obtain ⟨hslot, hrest⟩ := List.forall_mem_cons.mp has
    simp only [gather?, gather, flat.find?_eq hslot, flat.find_eq, ih hrest, Option.bind_eq_bind,
      Option.bind_some, Option.pure_def]

variable (homes : ∀ {key slot}, g.slot? key = some slot → g.forest.Has slot)

include homes

theorem pin?_eq (key : PortKey) : g.pin? key = some (g.pin key) := by
  rw [pin?, pin]
  cases hslot : g.slot? key with
  | none => rfl
  | some slot => exact pinOfSlot?_eq flat (homes hslot)

theorem members?_eq (key : PortKey) : g.members? key = some (g.members key) := by
  have hports : ∀ port ∈ g.slots.toList, g.forest.Has port.2 := fun port hport =>
    homes (Std.ExtTreeMap.mem_toList_iff_getElem?_eq_some.mp hport)
  rw [members?, members]
  cases hslot : g.slot? key with
  | none => rfl
  | some slot =>
    simp only [find?_eq flat (homes hslot), find_eq flat, gather?_eq flat _ hports, gather_eq flat,
      Option.bind_eq_bind, Option.bind_some, Option.pure_def]

/-- The members are gathered after the pin is written, which moves no slot. -/
theorem settle?_eq (key : PortKey) (type : String) :
    g.settle? key type = some (g.settle key type) := by
  rw [settle?, settle]
  cases hslot : g.slot? key with
  | none => rfl
  | some slot =>
    have hroot := flat.has_parent slot (homes hslot)
    simp only [find?_eq flat (homes hslot), find_eq flat, Forest.node?_eq hroot, Option.bind_eq_bind,
      Option.bind_some, Option.pure_def]
    cases g.forest.pin (g.forest.parent slot) with
    | some found => rfl
    | none =>
      let pinned := g.pinned (g.forest.parent slot) type
      have hhomes {key : PortKey} {home : Slot} (hhome : pinned.slot? key = some home) :
          pinned.forest.Has home := Forest.has_modify.mpr (homes hhome)
      have hmembers : pinned.members? key = some (pinned.members key) :=
        members?_eq (pinned_flat flat _ type) hhomes key
      simp only [Forest.modify?_eq hroot, Option.bind_some]
      change (pinned.members? key).bind _ = _
      rw [hmembers]
      rfl

end

end Groups

end Dataflow
