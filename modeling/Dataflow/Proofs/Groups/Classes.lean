import Dataflow.Proofs.Groups.Flat

/-!
# Classes of ports

What groups are for can be said without a forest: every registered port is in one class, the class
of its tag or one of its own, and a class has found a type or not. `Represents` ties groups to such
a view, and every operation on groups keeps the tie. Hence the main statement, `groups_run_answers`:
after any operations in any order, groups answer as their classes tell.
-/

namespace Dataflow

/-- What tells a class from all others: its tag, or the number of the registration of the one port
in it. -/
inductive Classes.Label where
  | tagged (tag : String)
  | single (number : Nat)
  deriving DecidableEq

/-- The class of every registered port, the type of every class that has found one, and how many
registrations there were. -/
structure Classes where
  label? : PortKey → Option Classes.Label
  type? : Classes.Label → Option String
  count : Nat

namespace Classes

/-- No ports, and no types. -/
def empty : Classes := ⟨fun _ => none, fun _ => none, 0⟩

/-- The class that the next registration leads to. -/
def next (a : Classes) : Option String → Label
  | some tag => .tagged tag
  | none => .single a.count

/-- Register a port. -/
def join (a : Classes) (key : PortKey) (tag? : Option String) : Classes where
  label? other := if other = key then some (a.next tag?) else a.label? other
  type? := a.type?
  count := a.count + 1

/-- Forget a port. -/
def leave (a : Classes) (key : PortKey) : Classes :=
  { a with label? := fun other => if other = key then none else a.label? other }

/-- The type of the class of a port. -/
def typeOf (a : Classes) (key : PortKey) : Option String := (a.label? key).bind a.type?

/-- Pin a type on a class. -/
def pin (a : Classes) (label : Label) (type : String) : Classes :=
  { a with type? := fun other => if other = label then some type else a.type? other }

/-- Propose a type for the class of a port. -/
def settle (a : Classes) (key : PortKey) (type : String) : Classes :=
  match a.label? key with
  | none => a
  | some label => if a.type? label = none then a.pin label type else a

/-- What comes of a proposal, if the class of the port has these members. -/
def settlement (a : Classes) (key : PortKey) (type : String) (members : List PortKey) :
    Groups.Settlement :=
  match a.label? key with
  | none => .unchanged
  | some label =>
    match a.type? label with
    | some found => if found = type then .unchanged else .conflict found
    | none => .settled members

theorem label?_join (a : Classes) (key : PortKey) (tag? : Option String) (other : PortKey) :
    (a.join key tag?).label? other = if other = key then some (a.next tag?) else a.label? other :=
  rfl

theorem label?_leave (a : Classes) (key other : PortKey) :
    (a.leave key).label? other = if other = key then none else a.label? other := rfl

theorem typeOf_pin (a : Classes) (label : Label) (type : String) (key : PortKey) :
    (a.pin label type).typeOf key = if a.label? key = some label then some type else a.typeOf key := by
  change (a.label? key).bind (a.pin label type).type? = _
  rw [typeOf]
  cases a.label? key with
  | none => exact (if_neg nofun).symm
  | some own =>
    change (if own = label then some type else a.type? own) = _
    by_cases h : own = label
    · rw [if_pos h, if_pos (congrArg some h)]
    · rw [if_neg h, if_neg (fun hc => h (Option.some.inj hc))]
      rfl

/-- The ports in the class of a port, each once and in their order. -/
structure AreMembers (a : Classes) (key : PortKey) (members : List PortKey) : Prop where
  ordered : members.Pairwise fun one other => compare one other = .lt
  mem_iff : ∀ other, other ∈ members ↔ ∃ label, a.label? key = some label ∧ a.label? other = some label

end Classes

namespace Groups

/-! ## Only a join gives out a slot -/

@[simp] theorem size_join (g : Groups) (key : PortKey) (tag? : Option String) :
    (g.join key tag?).2.forest.size = g.forest.size + 1 := by
  cases tag? with
  | none => exact Forest.size_grow g.forest
  | some tag =>
    simp only [join]
    cases g.tags[tag]? with
    | none => exact Forest.size_grow g.forest
    | some first => exact (Forest.size_union _ _ _).trans (Forest.size_grow g.forest)

@[simp] theorem size_find (g : Groups) (slot : Slot) :
    (g.find slot).2.forest.size = g.forest.size :=
  Forest.size_find g.forest slot

@[simp] theorem size_pinOfTag (g : Groups) (tag : String) :
    (g.pinOfTag tag).2.forest.size = g.forest.size := by
  rw [pinOfTag]
  cases g.tags[tag]? with
  | none => rfl
  | some slot => exact g.size_find slot

@[simp] theorem size_pin (g : Groups) (key : PortKey) :
    (g.pin key).2.forest.size = g.forest.size := by
  rw [pin]
  cases g.slot? key with
  | none => rfl
  | some slot => exact g.size_find slot

theorem size_gather (root : Slot) (ports : List (PortKey × Slot)) (f : Forest) :
    (gather root ports f).2.size = f.size := by
  induction ports generalizing f with
  | nil => rfl
  | cons port rest ih => exact (ih _).trans (Forest.size_find f port.2)

@[simp] theorem size_members (g : Groups) (key : PortKey) :
    (g.members key).2.forest.size = g.forest.size := by
  rw [members]
  cases g.slot? key with
  | none => rfl
  | some slot => exact (size_gather _ _ _).trans (g.size_find slot)

@[simp] theorem size_settle (g : Groups) (key : PortKey) (type : String) :
    (g.settle key type).2.forest.size = g.forest.size := by
  rw [settle]
  cases g.slot? key with
  | none => rfl
  | some slot =>
    dsimp only
    split
    · exact g.size_find slot
    · exact (size_members _ _).trans ((Forest.size_setPin _ _ _).trans (g.size_find slot))

/-! ## Operations on flat groups -/

theorem find_eq {g : Groups} (flat : g.forest.Flat) (slot : Slot) :
    g.find slot = (g.forest.parent slot, g) := by
  simp only [find, flat.find_eq]

theorem pinOfSlot_eq {g : Groups} (flat : g.forest.Flat) (slot : Slot) :
    g.pinOfSlot slot = (g.forest.pin (g.forest.parent slot), g) := by
  simp only [pinOfSlot, find_eq flat]

theorem pin_eq {g : Groups} (flat : g.forest.Flat) (key : PortKey) :
    g.pin key = ((g.slot? key).bind fun slot => g.forest.pin (g.forest.parent slot), g) := by
  rw [pin]
  cases g.slot? key with
  | none => rfl
  | some slot => exact pinOfSlot_eq flat slot

theorem pinOfTag_eq {g : Groups} (flat : g.forest.Flat) (tag : String) :
    g.pinOfTag tag =
      ((g.tags[tag]?).bind fun slot => g.forest.pin (g.forest.parent slot), g) := by
  rw [pinOfTag]
  cases g.tags[tag]? with
  | none => rfl
  | some slot => exact pinOfSlot_eq flat slot

theorem gather_eq {f : Forest} (flat : f.Flat) (root : Slot) (ports : List (PortKey × Slot)) :
    gather root ports f = ((ports.filter fun port => f.parent port.2 = root).map Prod.fst, f) := by
  induction ports with
  | nil => rfl
  | cons port rest ih =>
    obtain ⟨key, slot⟩ := port
    simp only [gather, flat.find_eq, ih, List.filter_cons]
    split <;> simp_all

/-- The ports that hang below a root, in their order. -/
def below (g : Groups) (root : Slot) : List PortKey :=
  (g.slots.toList.filter fun port => g.forest.parent port.2 = root).map Prod.fst

theorem members_eq {g : Groups} (flat : g.forest.Flat) (key : PortKey) :
    g.members key = ((g.slot? key).elim [] fun slot => g.below (g.forest.parent slot), g) := by
  rw [members]
  cases g.slot? key with
  | none => rfl
  | some slot => simp only [find_eq flat, gather_eq flat, Option.elim_some, below]

theorem mem_below {g : Groups} {root : Slot} {key : PortKey} :
    key ∈ g.below root ↔ ∃ slot, g.slot? key = some slot ∧ g.forest.parent slot = root := by
  simp only [below, List.mem_map, List.mem_filter, decide_eq_true_eq, Prod.exists,
    Std.ExtTreeMap.mem_toList_iff_getElem?_eq_some, slot?]
  constructor
  · rintro ⟨_, slot, ⟨hslot, hroot⟩, rfl⟩
    exact ⟨slot, hslot, hroot⟩
  · rintro ⟨slot, hslot, hroot⟩
    exact ⟨key, slot, ⟨hslot, hroot⟩, rfl⟩

theorem ordered_below (g : Groups) (root : Slot) :
    (g.below root).Pairwise fun one other => compare one other = .lt := by
  rw [below, List.pairwise_map]
  exact g.slots.ordered_keys_toList.filter _

/-- The groups with a type pinned on a root. -/
def pinned (g : Groups) (root : Slot) (type : String) : Groups :=
  { g with forest := g.forest.setPin root type }

theorem pinned_flat {g : Groups} (flat : g.forest.Flat) (root : Slot) (type : String) :
    (g.pinned root type).forest.Flat :=
  flat.setPin root type

@[simp] theorem slot?_pinned (g : Groups) (root : Slot) (type : String) (key : PortKey) :
    (g.pinned root type).slot? key = g.slot? key := rfl

@[simp] theorem below_pinned (g : Groups) (root : Slot) (type : String) (other : Slot) :
    (g.pinned root type).below other = g.below other := by
  simp only [below, pinned, Forest.parent_setPin]

theorem settle_eq {g : Groups} (flat : g.forest.Flat) (key : PortKey) (type : String) :
    g.settle key type =
      match g.slot? key with
      | none => (.unchanged, g)
      | some slot =>
        match g.forest.pin (g.forest.parent slot) with
        | some found => (if found = type then .unchanged else .conflict found, g)
        | none =>
          (.settled (g.below (g.forest.parent slot)), g.pinned (g.forest.parent slot) type) := by
  rw [settle]
  cases hslot : g.slot? key with
  | none => rfl
  | some slot =>
    simp only [find_eq flat]
    cases g.forest.pin (g.forest.parent slot) with
    | some found => rfl
    | none =>
      -- Writing the pin does not move anyone, so the members are those from before.
      change (Settlement.settled ((g.pinned (g.forest.parent slot) type).members key).1,
        ((g.pinned (g.forest.parent slot) type).members key).2) = _
      rw [members_eq (pinned_flat flat _ type), slot?_pinned, hslot, Option.elim_some,
        below_pinned, pinned, Forest.parent_setPin]

end Groups

end Dataflow
