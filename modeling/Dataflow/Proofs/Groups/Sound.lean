import Dataflow.Proofs.Groups.Classes
import Dataflow.Proofs.Groups.Paths
import Dataflow.Proofs.Lookup

/-!
# A class that has found a type keeps one

Groups are sound if their forest is rooted and has all slots in use. They stay sound whatever is done
to them, even after all slots have been given out and a slot comes up for the second time. The class
of a port that has found a type never gets rid of it.
-/

namespace Dataflow

namespace Groups

structure Sound (g : Groups) : Prop where
  rooted : g.forest.Rooted
  has_slot : ∀ {key slot}, g.slot? key = some slot → g.forest.Has slot
  has_tag : ∀ {tag : String} {slot}, g.tags[tag]? = some slot → g.forest.Has slot

/-- The type that the class of a slot has found. -/
def found? (g : Groups) (slot : Slot) : Option String := g.forest.pin (g.forest.root slot)

/-- The class of a port has found a type. -/
def Pinned (g : Groups) (key : PortKey) : Prop :=
  ∃ slot, g.slot? key = some slot ∧ (g.found? slot).isSome

theorem Sound.empty : Groups.empty.Sound where
  rooted := .empty
  has_slot h := by simp [Groups.empty, slot?] at h
  has_tag h := by simp [Groups.empty] at h

/-! ## Reading -/

/-- Paths may have been shortened, and nothing else. -/
structure Shortened (g after : Groups) : Prop where
  forest : g.forest.Shortened after.forest
  slots_eq : after.slots = g.slots
  tags_eq : after.tags = g.tags

namespace Shortened

variable {g mid after : Groups}

theorem refl (h : g.Sound) : g.Shortened g := ⟨.refl h.rooted, rfl, rfl⟩

theorem trans (h : g.Shortened mid) (h' : mid.Shortened after) : g.Shortened after :=
  ⟨h.forest.trans h'.forest, h'.slots_eq.trans h.slots_eq, h'.tags_eq.trans h.tags_eq⟩

theorem slot?_eq (h : g.Shortened after) (key : PortKey) : after.slot? key = g.slot? key := by
  rw [slot?, slot?, h.slots_eq]

theorem found?_eq (h : g.Shortened after) (slot : Slot) : after.found? slot = g.found? slot := by
  rw [found?, found?, h.forest.root_eq, h.forest.pin_eq]

theorem sound (h : g.Shortened after) (sound : g.Sound) : after.Sound where
  rooted := h.forest.rooted
  has_slot {key slot} hslot := by
    rw [h.slot?_eq] at hslot
    exact h.forest.has (sound.has_slot hslot)
  has_tag {tag slot} htag := by
    rw [h.tags_eq] at htag
    exact h.forest.has (sound.has_tag htag)

theorem pinned (h : g.Shortened after) {key : PortKey} (hpinned : g.Pinned key) :
    after.Pinned key := by
  obtain ⟨slot, hslot, hfound⟩ := hpinned
  refine ⟨slot, ?_, ?_⟩
  · rw [h.slot?_eq, hslot]
  · rw [h.found?_eq, hfound]

end Shortened

namespace Sound

variable {g : Groups}

theorem find (h : g.Sound) (slot : Slot) : g.Shortened (g.find slot).2 :=
  ⟨h.rooted.find slot, rfl, rfl⟩

theorem pinOfSlot (h : g.Sound) (slot : Slot) :
    (g.pinOfSlot slot).1 = g.found? slot ∧ g.Shortened (g.pinOfSlot slot).2 :=
  ⟨(h.find slot).forest.pin_eq _, h.find slot⟩

theorem pinOfTag (h : g.Sound) (tag : String) :
    (g.pinOfTag tag).1 = (g.tags[tag]?).bind g.found? ∧ g.Shortened (g.pinOfTag tag).2 := by
  rw [Groups.pinOfTag]
  cases g.tags[tag]? with
  | none => exact ⟨rfl, .refl h⟩
  | some slot => exact h.pinOfSlot slot

end Sound

theorem gather_cons (f : Forest) (root : Slot) (key : PortKey) (slot : Slot)
    (rest : List (PortKey × Slot)) :
    (gather root ((key, slot) :: rest) f).1 =
      if f.root slot = root then key :: (gather root rest (f.find slot).2).1
      else (gather root rest (f.find slot).2).1 := rfl

/-- Who is in a class depends on the roots alone. -/
theorem gather_rooted {f : Forest} (h : f.Rooted) (root : Slot) (ports : List (PortKey × Slot)) :
    (gather root ports f).1 = (ports.filter fun port => f.root port.2 = root).map Prod.fst ∧
      f.Shortened (gather root ports f).2 := by
  induction ports generalizing f with
  | nil => exact ⟨rfl, .refl h⟩
  | cons port rest ih =>
    obtain ⟨key, slot⟩ := port
    have hfind := h.find slot
    obtain ⟨hkeys, hrest⟩ := ih hfind.rooted
    simp only [hfind.root_eq] at hkeys
    refine ⟨?_, hfind.trans hrest⟩
    rw [gather_cons, hkeys]
    by_cases hroot : f.root slot = root <;> simp [hroot]

theorem Sound.members_fst {g : Groups} (h : g.Sound) (key : PortKey) :
    (g.members key).1 = (g.slot? key).elim [] fun slot =>
      (g.slots.toList.filter fun port => g.forest.root port.2 = g.forest.root slot).map Prod.fst := by
  rw [Groups.members]
  cases g.slot? key with
  | none => rfl
  | some slot =>
    have hfind := h.find slot
    have hkeys := (gather_rooted hfind.forest.rooted (g.forest.root slot) g.slots.toList).1
    simp only [hfind.forest.root_eq] at hkeys
    exact hkeys

theorem Sound.members_snd {g : Groups} (h : g.Sound) (key : PortKey) :
    g.Shortened (g.members key).2 := by
  rw [Groups.members]
  cases g.slot? key with
  | none => exact .refl h
  | some slot =>
    have hfind := h.find slot
    exact ⟨hfind.forest.trans (gather_rooted hfind.forest.rooted _ _).2, rfl, rfl⟩

/-- Members have slots of one class. -/
theorem Sound.mem_members {g : Groups} (h : g.Sound) {key other : PortKey} {slot : Slot}
    (hslot : g.slot? key = some slot) :
    other ∈ (g.members key).1 ↔
      ∃ slot', g.slot? other = some slot' ∧ g.forest.root slot' = g.forest.root slot := by
  rw [h.members_fst, hslot, Option.elim_some, List.mem_map]
  constructor
  · rintro ⟨⟨_, slot'⟩, hmem, rfl⟩
    obtain ⟨hentry, hroot⟩ := List.mem_filter.mp hmem
    exact ⟨slot', Std.ExtTreeMap.mem_toList_iff_getElem?_eq_some.mp hentry, of_decide_eq_true hroot⟩
  · rintro ⟨slot', hslot', hroot⟩
    have hentry := Std.ExtTreeMap.mem_toList_iff_getElem?_eq_some.mpr hslot'
    exact ⟨(other, slot'), List.mem_filter.mpr ⟨hentry, decide_eq_true hroot⟩, rfl⟩

/-! ## What shortened paths do not show -/

theorem Sound.pin_fst {g : Groups} (h : g.Sound) (key : PortKey) :
    (g.pin key).1 = (g.slot? key).bind g.found? := by
  rw [Groups.pin]
  cases g.slot? key with
  | none => rfl
  | some slot => exact (h.pinOfSlot slot).1

namespace Shortened

variable {g after : Groups}

theorem members_eq (h : g.Shortened after) (sound : g.Sound) (key : PortKey) :
    (after.members key).1 = (g.members key).1 := by
  rw [(h.sound sound).members_fst, sound.members_fst, h.slot?_eq, h.slots_eq]
  simp only [h.forest.root_eq]

theorem pin_eq (h : g.Shortened after) (sound : g.Sound) (key : PortKey) :
    (after.pin key).1 = (g.pin key).1 := by
  rw [(h.sound sound).pin_fst, sound.pin_fst, h.slot?_eq, funext h.found?_eq]

theorem pinOfTag_eq (h : g.Shortened after) (sound : g.Sound) (tag : String) :
    (after.pinOfTag tag).1 = (g.pinOfTag tag).1 := by
  rw [((h.sound sound).pinOfTag tag).1, (sound.pinOfTag tag).1, h.tags_eq, funext h.found?_eq]

end Shortened

/-! ## Ports that come and go -/

theorem Sound.leave {g : Groups} (h : g.Sound) (key : PortKey) : (g.leave key).Sound where
  rooted := h.rooted
  has_slot {other slot} hslot := by
    change (g.slots.erase key)[other]? = some slot at hslot
    rw [Lookup.getElem?_erase] at hslot
    split at hslot
    · exact nomatch hslot
    · exact h.has_slot hslot
  has_tag := h.has_tag

/-- A port with a new slot, in a class of its own. -/
def entered (g : Groups) (key : PortKey) : Groups :=
  ⟨g.forest.grow.2, g.slots.insert key g.forest.grow.1, g.tags⟩

theorem slot?_entered (g : Groups) (key other : PortKey) :
    (g.entered key).slot? other = if other = key then some g.forest.grow.1 else g.slot? other :=
  Lookup.getElem?_insert g.slots key _ other

theorem Sound.entered {g : Groups} (h : g.Sound) (key : PortKey) : (g.entered key).Sound where
  rooted := h.rooted.grow.1
  has_slot {other slot} hslot := by
    rw [slot?_entered] at hslot
    split at hslot
    · rw [← Option.some.inj hslot]
      exact Forest.has_grow g.forest
    · exact Forest.has_grow_of_has (h.has_slot hslot)
  has_tag htag := Forest.has_grow_of_has (h.has_tag htag)

theorem Sound.found?_entered {g : Groups} (h : g.Sound) (key : PortKey) (slot : Slot) :
    (g.entered key).found? slot = g.found? slot := by
  change g.forest.grow.2.pin (g.forest.grow.2.root slot) = g.forest.pin (g.forest.root slot)
  rw [Forest.pin_grow, h.rooted.grow.2]

/-- What a join does for the port, for the others and for the tag. -/
structure Welcomed (g : Groups) (key : PortKey) (tag? : Option String) (after : Groups) :
    Prop where
  sound : after.Sound
  slot_eq : ∀ other, after.slot? other = if other = key then some g.forest.grow.1 else g.slot? other
  keeps : ∀ slot, (g.found? slot).isSome → (after.found? slot).isSome
  together : ∀ {tag : String} {first}, tag? = some tag → after.tags[tag]? = some first →
    after.forest.root first = after.forest.root g.forest.grow.1

theorem Sound.join {g : Groups} (h : g.Sound) (key : PortKey) (tag? : Option String) :
    g.Welcomed key tag? (g.join key tag?).2 := by
  have hentered := h.entered key
  have hfound := h.found?_entered key
  cases tag? with
  | none =>
    exact {
      sound := hentered
      slot_eq := g.slot?_entered key
      keeps := fun slot hslot => by
        rw [← hfound slot] at hslot
        exact hslot
      together := nofun }
  | some tag =>
    cases htag : g.tags[tag]? with
    | none =>
      have hjoin : (g.join key (some tag)).2 =
          { g.entered key with tags := g.tags.insert tag g.forest.grow.1 } := by
        simp only [Groups.join, htag]
        rfl
      rw [hjoin]
      exact {
        sound := {
          rooted := hentered.rooted
          has_slot := hentered.has_slot
          has_tag := fun {other slot} hother => by
            rw [Lookup.getElem?_insert] at hother
            split at hother
            · rw [← Option.some.inj hother]
              exact Forest.has_grow g.forest
            · exact hentered.has_tag hother }
        slot_eq := g.slot?_entered key
        keeps := fun slot hslot => by
          rw [← hfound slot] at hslot
          exact hslot
        together := fun {other first} hother hfirst => by
          rw [← Option.some.inj hother, Lookup.getElem?_insert, if_pos rfl] at hfirst
          rw [← Option.some.inj hfirst] }
    | some first =>
      have hjoin : (g.join key (some tag)).2 =
          { g.entered key with forest := g.forest.grow.2.union first g.forest.grow.1 } := by
        simp only [Groups.join, htag]
        rfl
      have hunion := hentered.rooted.union (hentered.has_tag htag) (Forest.has_grow g.forest)
      have hhas {slot : Slot} (hslot : g.forest.grow.2.Has slot) :
          (g.forest.grow.2.union first g.forest.grow.1).Has slot := by
        rwa [Forest.Has, Forest.size_union]
      rw [hjoin]
      exact {
        sound := {
          rooted := hunion.rooted
          has_slot := fun hslot => hhas (hentered.has_slot hslot)
          has_tag := fun hother => hhas (hentered.has_tag hother) }
        slot_eq := g.slot?_entered key
        keeps := fun slot hslot => by
          rw [← hfound slot] at hslot
          exact hunion.pinned slot hslot
        together := fun {other top} hother htop => by
          rw [← Option.some.inj hother] at htop
          rw [← Option.some.inj (htag.symm.trans htop)]
          exact hunion.together }

/-! ## A class that finds a type -/

theorem Sound.pinned {g : Groups} (h : g.Sound) (root : Slot) (type : String) :
    (g.pinned root type).Sound where
  rooted := (h.rooted.setPin root type).1
  has_slot hslot := by
    rw [Forest.Has, Groups.pinned, Forest.size_setPin]
    exact h.has_slot hslot
  has_tag htag := by
    rw [Forest.Has, Groups.pinned, Forest.size_setPin]
    exact h.has_tag htag

theorem Sound.found?_pinned {g : Groups} (h : g.Sound) {slot : Slot} (hslot : g.forest.Has slot)
    (type : String) (other : Slot) :
    (g.pinned (g.forest.root slot) type).found? other =
      if g.forest.root other = g.forest.root slot then some type else g.found? other := by
  have hroot := (h.rooted.setPin (g.forest.root slot) type).2 other
  rw [found?, Groups.pinned, hroot, Forest.pin_setPin (h.rooted.has_root hslot)]
  rfl

/-- What comes of a type that is proposed for the class of a slot. -/
inductive Decided (g : Groups) (slot : Slot) (type : String) : Settlement × Groups → Prop where
  | known {found : String} {after : Groups} (found_eq : g.found? slot = some found)
      (shortened : g.Shortened after) :
      Decided g slot type (if found = type then .unchanged else .conflict found, after)
  | settled {members : List PortKey} {after : Groups} (found_eq : g.found? slot = none)
      (sound : after.Sound) (slot_eq : ∀ other, after.slot? other = g.slot? other)
      (keeps : ∀ slot, (g.found? slot).isSome → (after.found? slot).isSome)
      (classmates : ∀ other ∈ members, ∃ slot', g.slot? other = some slot' ∧
        g.found? slot' = none ∧ (after.found? slot').isSome) :
      Decided g slot type (.settled members, after)

/-- Slots stay, and so do the types of their classes. -/
theorem Decided.keeps {g : Groups} (h : g.Sound) {slot : Slot} {type : String}
    {r : Settlement × Groups} (hr : g.Decided slot type r) :
    r.2.Sound ∧ (∀ key, r.2.slot? key = g.slot? key) ∧
      ∀ key, g.Pinned key → r.2.Pinned key := by
  cases hr with
  | known found_eq shortened => exact ⟨shortened.sound h, shortened.slot?_eq, fun _ => shortened.pinned⟩
  | settled found_eq sound slot_eq keeps classmates =>
    refine ⟨sound, slot_eq, fun key hkey => ?_⟩
    obtain ⟨own, hown, hfound⟩ := hkey
    exact ⟨own, (slot_eq key).trans hown, keeps own hfound⟩

theorem Shortened.decided {g mid : Groups} {slot : Slot} {type : String} {r : Settlement × Groups}
    (h : g.Shortened mid) (hr : mid.Decided slot type r) : g.Decided slot type r := by
  cases hr with
  | known found_eq shortened =>
    rw [h.found?_eq] at found_eq
    exact .known found_eq (h.trans shortened)
  | settled found_eq sound slot_eq keeps classmates =>
    simp only [h.found?_eq, h.slot?_eq] at found_eq slot_eq keeps classmates
    exact .settled found_eq sound slot_eq keeps classmates

/-- The members are gathered when their class has the type already. -/
theorem Sound.settled {g : Groups} (h : g.Sound) (key : PortKey) {slot : Slot}
    (hslot : g.slot? key = some slot) (hfound : g.found? slot = none) (type : String) :
    g.Decided slot type (.settled ((g.pinned (g.forest.root slot) type).members key).1,
      ((g.pinned (g.forest.root slot) type).members key).2) := by
  have hpinned := h.pinned (g.forest.root slot) type
  have hfound' := h.found?_pinned (h.has_slot hslot) type
  have hroot := (h.rooted.setPin (g.forest.root slot) type).2
  have hshort := hpinned.members_snd key
  refine .settled hfound (hshort.sound hpinned) hshort.slot?_eq (fun other hother => ?_)
    fun other hother => ?_
  · rw [hshort.found?_eq, hfound']
    split
    · rfl
    · exact hother
  · obtain ⟨slot', hslot', hsame⟩ := (hpinned.mem_members hslot).mp hother
    have hsame : g.forest.root slot' = g.forest.root slot :=
      (hroot slot').symm.trans (hsame.trans (hroot slot))
    refine ⟨slot', hslot', ?_, ?_⟩
    · rwa [found?, hsame]
    · rw [hshort.found?_eq, hfound', if_pos hsame]
      rfl

/-- The class is asked first, and settled if it has found nothing. -/
theorem Sound.settle_eq {g : Groups} (h : g.Sound) {key : PortKey} {slot : Slot}
    (hslot : g.slot? key = some slot) (type : String) :
    g.settle key type =
      match g.found? slot with
      | some found => (if found = type then .unchanged else .conflict found, (g.find slot).2)
      | none =>
        (.settled (((g.find slot).2.pinned (g.forest.root slot) type).members key).1,
          (((g.find slot).2.pinned (g.forest.root slot) type).members key).2) := by
  have hpin : (g.find slot).2.forest.pin (g.find slot).1 = g.found? slot :=
    (h.find slot).forest.pin_eq _
  rw [Groups.settle, hslot]
  dsimp only
  rw [hpin]
  cases g.found? slot <;> rfl

theorem Sound.settle {g : Groups} (h : g.Sound) {key : PortKey} {slot : Slot}
    (hslot : g.slot? key = some slot) (type : String) : g.Decided slot type (g.settle key type) := by
  have hfind := h.find slot
  rw [h.settle_eq hslot]
  cases hfound : g.found? slot with
  | some found => exact .known hfound hfind
  | none =>
    have hopen : (g.find slot).2.found? slot = none := (hfind.found?_eq slot).trans hfound
    have hsettled := hfind.decided ((hfind.sound h).settled key hslot hopen type)
    rw [hfind.forest.root_eq] at hsettled
    exact hsettled

/-- A class that has found nothing is settled with all its members. -/
theorem Sound.settle_fst {g : Groups} (h : g.Sound) {key : PortKey} {slot : Slot}
    (hslot : g.slot? key = some slot) (hfound : g.found? slot = none) (type : String) :
    (g.settle key type).1 = .settled (g.members key).1 := by
  have hfind := h.find slot
  have hmid := hfind.sound h
  have hroot := (hmid.rooted.setPin (g.forest.root slot) type).2
  rw [h.settle_eq hslot, hfound]
  dsimp only
  rw [(hmid.pinned _ type).members_fst, h.members_fst, slot?_pinned, hfind.slot?_eq, Groups.pinned]
  simp only [hroot, hfind.forest.root_eq, hfind.slots_eq]

end Groups

end Dataflow
