import Dataflow.Groups.Basic

/-!
# Flat forests

A forest is *flat* if every slot is a root or hangs directly below one. In a flat forest a look-up
reads the parent and leaves everything in place. The forests of groups are flat at all times: a new
slot is either a root of its own or hung below the root that stands for its tag.
-/

namespace Dataflow

namespace Slot

theorem index_inj {a b : Slot} (h : a.index = b.index) : a = b := by
  obtain ⟨a⟩ := a
  obtain ⟨b⟩ := b
  rw [Slot.mk.injEq]
  exact UInt32.toNat_inj.mp h

theorem index_ofIndex {n : Nat} (h : n < UInt32.size) : (ofIndex n).index = n :=
  UInt32.toNat_ofNat_of_lt' h

end Slot

namespace Forest

/-- The slot is one of the forest. -/
def Has (f : Forest) (slot : Slot) : Prop := slot.index < f.size

/-- Every slot is a root or hangs directly below one. -/
structure Flat (f : Forest) : Prop where
  parent_parent : ∀ slot, f.parent (f.parent slot) = f.parent slot
  has_parent : ∀ slot, f.Has slot → f.Has (f.parent slot)

/-! ## What a change of one node leaves alone -/

@[simp] theorem size_modify (f : Forest) (slot : Slot) (change : Node → Node) :
    (f.modify slot change).size = f.size := by
  simp only [size, modify, Array.size_modify]

theorem has_modify {f : Forest} {slot other : Slot} {change : Node → Node} :
    (f.modify slot change).Has other ↔ f.Has other := by
  rw [Has, Has, size_modify]

theorem nodes_modify (f : Forest) (slot : Slot) (change : Node → Node) (i : Nat) :
    (f.modify slot change).nodes[i]? =
      if slot.index = i then (f.nodes[i]?).map change else f.nodes[i]? := by
  simp only [modify, Array.getElem?_modify]

/-- What is read of every node as before is read as before at every place. -/
theorem read_modify {β : Type} (read : Option Node → β) {f : Forest} {change : Node → Node}
    (h : ∀ node, read (some (change node)) = read (some node)) (slot : Slot) (i : Nat) :
    read ((f.modify slot change).nodes[i]?) = read (f.nodes[i]?) := by
  rw [nodes_modify]
  split
  · cases f.nodes[i]? with
    | none => rfl
    | some node => exact h node
  · rfl

theorem parent_modify {f : Forest} {change : Node → Node} (slot : Slot)
    (h : ∀ node, (change node).parent = node.parent) (other : Slot) :
    (f.modify slot change).parent other = f.parent other :=
  read_modify (·.elim other Node.parent) h slot other.index

theorem pin_modify {f : Forest} {change : Node → Node} (slot : Slot)
    (h : ∀ node, (change node).pin = node.pin) (other : Slot) :
    (f.modify slot change).pin other = f.pin other :=
  read_modify (·.bind Node.pin) h slot other.index

theorem rank_modify {f : Forest} {change : Node → Node} (slot : Slot)
    (h : ∀ node, (change node).rank = node.rank) (other : Slot) :
    (f.modify slot change).rank other = f.rank other :=
  read_modify (·.elim 0 Node.rank) h slot other.index

/-- A slot that is not in the forest has no node. -/
theorem node_of_not_has {f : Forest} {slot : Slot} (h : ¬ f.Has slot) :
    f.nodes[slot.index]? = none :=
  Array.getElem?_eq_none (Nat.le_of_not_lt h)

theorem node_of_has {f : Forest} {slot : Slot} (h : f.Has slot) :
    ∃ node, f.nodes[slot.index]? = some node :=
  ⟨_, Array.getElem?_eq_getElem h⟩

theorem parent_of_not_has {f : Forest} {slot : Slot} (h : ¬ f.Has slot) : f.parent slot = slot := by
  simp only [parent, node_of_not_has h, Option.elim_none]

theorem pin_of_not_has {f : Forest} {slot : Slot} (h : ¬ f.Has slot) : f.pin slot = none := by
  simp only [pin, node_of_not_has h, Option.bind_none]

theorem parent_setParent {f : Forest} {low : Slot} (hlow : f.Has low) (high other : Slot) :
    (f.modify low fun node => { node with parent := high }).parent other =
      if other = low then high else f.parent other := by
  simp only [parent, nodes_modify]
  by_cases h : other = low
  · subst h
    obtain ⟨node, hnode⟩ := node_of_has hlow
    simp only [if_pos, hnode, Option.map_some, Option.elim_some]
  · rw [if_neg (fun hi => h (Slot.index_inj hi).symm), if_neg h]

theorem rank_setParent (f : Forest) (low high other : Slot) :
    (f.modify low fun node => { node with parent := high }).rank other = f.rank other := by
  rw [rank_modify]
  exact fun _ => rfl

theorem pin_setParent (f : Forest) (low high other : Slot) :
    (f.modify low fun node => { node with parent := high }).pin other = f.pin other := by
  rw [pin_modify]
  exact fun _ => rfl

theorem pin_write {f : Forest} {slot : Slot} (has : f.Has slot) (pin? : Option String) (other : Slot) :
    (f.modify slot fun node => { node with pin := pin? }).pin other =
      if other = slot then pin? else f.pin other := by
  simp only [pin, nodes_modify]
  by_cases h : other = slot
  · subst h
    obtain ⟨node, hnode⟩ := node_of_has has
    simp only [if_pos, hnode, Option.map_some, Option.bind_some]
  · rw [if_neg (fun hi => h (Slot.index_inj hi).symm), if_neg h]

theorem pin_write_of_ne {f : Forest} {slot other : Slot} (h : other ≠ slot) (pin? : Option String) :
    (f.modify slot fun node => { node with pin := pin? }).pin other = f.pin other := by
  simp only [pin, nodes_modify, if_neg (fun hi => h (Slot.index_inj hi).symm)]

theorem pin_setPin {f : Forest} {root : Slot} (hroot : f.Has root) (type : String) (other : Slot) :
    (f.setPin root type).pin other = if other = root then some type else f.pin other :=
  pin_write hroot (some type) other

@[simp] theorem parent_setPin (f : Forest) (root : Slot) (type : String) (other : Slot) :
    (f.setPin root type).parent other = f.parent other := by
  rw [setPin, parent_modify]
  exact fun _ => rfl

theorem rank_setPin (f : Forest) (root : Slot) (type : String) (other : Slot) :
    (f.setPin root type).rank other = f.rank other := by
  rw [setPin, rank_modify]
  exact fun _ => rfl

@[simp] theorem size_setPin (f : Forest) (root : Slot) (type : String) :
    (f.setPin root type).size = f.size :=
  size_modify f root _

theorem setPin_comm (f : Forest) {root other : Slot} (h : root ≠ other) (type type' : String) :
    (f.setPin root type).setPin other type' = (f.setPin other type').setPin root type := by
  have hindex : root.index ≠ other.index := fun hc => h (Slot.index_inj hc)
  have hnodes : ((f.setPin root type).setPin other type').nodes =
      ((f.setPin other type').setPin root type).nodes := by
    apply Array.ext_getElem?
    intro i
    simp only [setPin, nodes_modify]
    by_cases hroot : root.index = i
    · simp [hroot, hroot ▸ Ne.symm hindex]
    · simp [hroot]
  exact congrArg Forest.mk hnodes

/-! ## A new slot -/

@[simp] theorem size_grow (f : Forest) : f.grow.2.size = f.size + 1 := by
  simp only [size, grow, Array.size_push]

theorem index_grow {f : Forest} (few : f.size < UInt32.size) : f.grow.1.index = f.size :=
  Slot.index_ofIndex few

theorem not_has_grow {f : Forest} (few : f.size < UInt32.size) : ¬ f.Has f.grow.1 := by
  rw [Has, index_grow few]
  exact Nat.lt_irrefl _

theorem has_grow (f : Forest) : f.grow.2.Has f.grow.1 := by
  have hindex : f.grow.1.index = f.size % UInt32.size := UInt32.toNat_ofNat'
  rw [Has, hindex, size_grow]
  exact Nat.lt_succ_of_le (Nat.mod_le _ _)

theorem has_grow_of_has {f : Forest} {slot : Slot} (h : f.Has slot) : f.grow.2.Has slot := by
  rw [Has, size_grow]
  exact Nat.lt_succ_of_lt h

theorem nodes_grow (f : Forest) (i : Nat) :
    f.grow.2.nodes[i]? = if i = f.size then some ⟨f.grow.1, 0, none⟩ else f.nodes[i]? := by
  simp only [grow, Array.getElem?_push]
  rfl

/-- There is no slot at the size of a forest that has all slots already. -/
theorem few_of_index {f : Forest} {slot : Slot} (h : slot.index = f.size) : f.size < UInt32.size :=
  h ▸ slot.val.toNat_lt

/-- A slot outside the forest counts as a root of rank zero without a pin, so that nothing shows when
it comes in. -/
theorem read_grow {β : Type} (read : Option Node → β) (f : Forest) {slot : Slot}
    (h : read (some ⟨slot, 0, none⟩) = read none) :
    read (f.grow.2.nodes[slot.index]?) = read (f.nodes[slot.index]?) := by
  by_cases hslot : slot.index = f.size
  · have few := few_of_index hslot
    have hnew : f.grow.1 = slot := Slot.index_inj ((index_grow few).trans hslot.symm)
    have hout : ¬ f.Has slot := hnew ▸ not_has_grow few
    rw [nodes_grow, if_pos hslot, hnew, node_of_not_has hout, h]
  · rw [nodes_grow, if_neg hslot]

theorem parent_grow (f : Forest) (slot : Slot) : f.grow.2.parent slot = f.parent slot :=
  read_grow (·.elim slot Node.parent) f rfl

theorem rank_grow (f : Forest) (slot : Slot) : f.grow.2.rank slot = f.rank slot :=
  read_grow (·.elim 0 Node.rank) f rfl

theorem pin_grow (f : Forest) (slot : Slot) : f.grow.2.pin slot = f.pin slot :=
  read_grow (·.bind Node.pin) f rfl

theorem rank_grow_self {f : Forest} (few : f.size < UInt32.size) : f.grow.2.rank f.grow.1 = 0 := by
  simp only [rank, nodes_grow, index_grow few, if_pos, Option.elim_some]

/-! ## Only a new slot makes a forest larger -/

@[simp] theorem size_shorten (f : Forest) (top : Slot) (steps : Nat) (slot : Slot) :
    (f.shorten top steps slot).size = f.size := by
  induction steps generalizing f slot with
  | zero => rfl
  | succ steps ih =>
    simp only [shorten]
    split
    · rfl
    · rw [ih, size_modify]

@[simp] theorem size_find (f : Forest) (slot : Slot) : (f.find slot).2.size = f.size :=
  size_shorten f _ _ slot

@[simp] theorem size_hang (f : Forest) (high low : Slot) : (f.hang high low).size = f.size := by
  simp only [hang]
  split <;> split <;> simp only [size_modify]

@[simp] theorem size_union (f : Forest) (a b : Slot) : (f.union a b).size = f.size := by
  simp only [union]
  split
  · simp only [size_find]
  · split <;> simp only [size_hang, size_find]

/-! ## Look-ups in a flat forest -/

theorem climb_of_root {f : Forest} {slot : Slot} (h : f.parent slot = slot) (steps : Nat) :
    f.climb steps slot = slot := by
  cases steps with
  | zero => rfl
  | succ steps => rw [climb, if_pos h]

theorem Flat.root_eq {f : Forest} (flat : f.Flat) (slot : Slot) : f.root slot = f.parent slot := by
  rw [root]
  cases hsize : f.size with
  | zero =>
    have hout : ¬ f.Has slot := by
      rw [Has, hsize]
      exact Nat.not_lt_zero _
    rw [climb, parent_of_not_has hout]
  | succ n =>
    rw [climb]
    by_cases h : f.parent slot = slot
    · rw [if_pos h, h]
    · rw [if_neg h, climb_of_root (flat.parent_parent slot)]

/-- The parent is the root already, so there is no path to shorten. -/
theorem Flat.find_eq {f : Forest} (flat : f.Flat) (slot : Slot) :
    f.find slot = (f.parent slot, f) := by
  simp only [find, flat.root_eq slot, Prod.mk.injEq, true_and]
  cases f.size with
  | zero => rfl
  | succ n => rw [shorten, if_pos rfl]

theorem Flat.grow {f : Forest} (flat : f.Flat) : f.grow.2.Flat where
  parent_parent slot := by
    simp only [parent_grow]
    exact flat.parent_parent slot
  has_parent slot h := by
    rw [parent_grow]
    by_cases hslot : f.Has slot
    · exact has_grow_of_has (flat.has_parent slot hslot)
    · rw [parent_of_not_has hslot]
      exact h

theorem Flat.setPin {f : Forest} (flat : f.Flat) (root : Slot) (type : String) :
    (f.setPin root type).Flat where
  parent_parent slot := by
    simp only [parent_setPin]
    exact flat.parent_parent slot
  has_parent slot h := by
    rw [Has, parent_setPin, size_setPin]
    exact flat.has_parent slot (by rwa [Has, size_setPin] at h)

/-! ## Hanging a root below another one -/

/-- Raise the rank of `high` above that of `low`, if it is the same. -/
def raise (f : Forest) (high low : Slot) : Forest :=
  if f.rank high = f.rank low then
    f.modify high fun node => { node with rank := node.rank + 1 }
  else f

/-- Hand the pin of `low` over to `high`, if that has none. -/
def handOver (f : Forest) (high low : Slot) : Forest :=
  if (f.pin high).isNone then
    (f.modify high fun node => { node with pin := f.pin low }).modify low
      fun node => { node with pin := none }
  else f

@[simp] theorem size_raise (f : Forest) (high low : Slot) : (f.raise high low).size = f.size := by
  rw [raise]
  split
  · exact size_modify f high _
  · rfl

theorem parent_raise (f : Forest) (high low slot : Slot) :
    (f.raise high low).parent slot = f.parent slot := by
  rw [raise]
  split
  · rw [parent_modify]
    exact fun _ => rfl
  · rfl

theorem pin_raise (f : Forest) (high low slot : Slot) :
    (f.raise high low).pin slot = f.pin slot := by
  rw [raise]
  split
  · rw [pin_modify]
    exact fun _ => rfl
  · rfl

theorem parent_handOver (f : Forest) (high low slot : Slot) :
    (f.handOver high low).parent slot = f.parent slot := by
  rw [handOver]
  split
  · rw [parent_modify, parent_modify] <;> exact fun _ => rfl
  · rfl

theorem rank_handOver (f : Forest) (high low slot : Slot) :
    (f.handOver high low).rank slot = f.rank slot := by
  rw [handOver]
  split
  · rw [rank_modify, rank_modify] <;> exact fun _ => rfl
  · rfl

/-- The three steps of hanging: no step writes what the next one reads. -/
theorem hang_eq (f : Forest) (high low : Slot) :
    f.hang high low =
      ((f.modify low fun node => { node with parent := high }).raise high low).handOver high low := by
  rw [handOver, pin_raise, pin_raise, pin_setParent, pin_setParent, raise, rank_setParent,
    rank_setParent, hang]

theorem parent_hang {f : Forest} {low : Slot} (hlow : f.Has low) (high other : Slot) :
    (f.hang high low).parent other = if other = low then high else f.parent other := by
  rw [hang_eq, parent_handOver, parent_raise, parent_setParent hlow]

/-- Writing the pin that a slot has already changes no pin. -/
theorem pin_writePin {f : Forest} {slot : Slot} {pin? : Option String} (h : f.pin slot = pin?)
    (other : Slot) : (f.modify slot fun node => { node with pin := pin? }).pin other = f.pin other := by
  by_cases hother : other = slot
  · by_cases has : f.Has slot
    · rw [pin_write has, if_pos hother, hother, h]
    · rw [hother, pin_of_not_has has, pin_of_not_has (mt has_modify.mp has)]
  · exact pin_write_of_ne hother pin?

/-- A root without a pin has none to hand over. -/
theorem pin_handOver_of_none {f : Forest} {high low : Slot} (hlow : f.pin low = none) (slot : Slot) :
    (f.handOver high low).pin slot = f.pin slot := by
  rw [handOver]
  split
  · rename_i hhigh
    have hwrite := pin_writePin (Option.isNone_iff_eq_none.mp hhigh)
    rw [hlow, pin_writePin, hwrite]
    rw [hwrite, hlow]
  · rfl

/-- A root without a pin brings none along and takes none away. -/
theorem pin_hang {f : Forest} {high low : Slot} (hlow : f.pin low = none) (other : Slot) :
    (f.hang high low).pin other = f.pin other := by
  rw [hang_eq, pin_handOver_of_none, pin_raise, pin_setParent]
  rw [pin_raise, pin_setParent, hlow]

theorem Flat.hang {f : Forest} (flat : f.Flat) {high low : Slot} (hne : high ≠ low)
    (hhigh : f.Has high) (hroot : f.parent high = high) (hlow : f.Has low)
    (hleaf : ∀ slot, f.parent slot = low → slot = low) : (f.hang high low).Flat where
  parent_parent slot := by
    simp only [parent_hang hlow]
    by_cases hslot : slot = low
    · rw [if_pos hslot, if_neg hne, hroot]
    · rw [if_neg hslot, if_neg (fun h => hslot (hleaf slot h)), flat.parent_parent]
  has_parent slot h := by
    rw [Has, size_hang] at *
    rw [parent_hang hlow]
    split
    · exact hhigh
    · exact flat.has_parent slot h

/-! ## Joining a new slot to a class -/

/-- Hanging a new slot below a root is all that joining their classes comes to. -/
theorem union_grow {f : Forest} (flat : f.Flat) (few : f.size < UInt32.size) {top : Slot}
    (htop : f.Has top) (hroot : f.parent top = top) :
    f.grow.2.union top f.grow.1 = f.grow.2.hang top f.grow.1 := by
  have hne : top ≠ f.grow.1 := fun h => not_has_grow few (h ▸ htop)
  have hnew : f.grow.2.parent f.grow.1 = f.grow.1 := by
    rw [parent_grow, parent_of_not_has (not_has_grow few)]
  have htop' : f.grow.2.parent top = top := by rw [parent_grow, hroot]
  simp only [union, flat.grow.find_eq, hnew, htop', if_neg hne]
  -- The rank of a new slot is zero, so it never becomes the upper root.
  rw [if_pos (by rw [rank_grow_self few]; exact UInt8.le_iff_toNat_le.mpr (Nat.zero_le _))]

theorem parent_join (f : Forest) (top slot : Slot) :
    (f.grow.2.hang top f.grow.1).parent slot = if slot = f.grow.1 then top else f.parent slot := by
  rw [parent_hang (has_grow _), parent_grow]

theorem pin_join {f : Forest} (few : f.size < UInt32.size) (top slot : Slot) :
    (f.grow.2.hang top f.grow.1).pin slot = f.pin slot := by
  rw [pin_hang, pin_grow]
  rw [pin_grow, pin_of_not_has (not_has_grow few)]

theorem Flat.join {f : Forest} (flat : f.Flat) (few : f.size < UInt32.size) {top : Slot}
    (htop : f.Has top) (hroot : f.parent top = top) : (f.grow.2.hang top f.grow.1).Flat := by
  have hne : top ≠ f.grow.1 := fun h => not_has_grow few (h ▸ htop)
  refine flat.grow.hang hne (has_grow_of_has htop) ?_ (has_grow _) ?_
  · rw [parent_grow, hroot]
  · -- Nothing can hang below a slot that was not there.
    intro slot h
    rw [parent_grow] at h
    by_cases hslot : f.Has slot
    · exact absurd (h ▸ flat.has_parent slot hslot) (not_has_grow few)
    · rwa [parent_of_not_has hslot] at h

end Forest

end Dataflow
