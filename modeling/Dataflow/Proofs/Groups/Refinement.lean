import Dataflow.Proofs.Groups.Classes
import Dataflow.Proofs.Lookup

/-!
# Groups answer as their classes tell

Every class has one slot that stands for it: the slot of its tag, or the slot of its one port. The
tie between groups and classes is that the slot of a port hangs below the slot that stands for its
class, and that the pin there is the type of the class. Every operation keeps this tie.
-/

namespace Dataflow

namespace Groups

/-- The slot at the top of a class. A slot that no tag points to stands for the registration with
its number. -/
def StandsFor (g : Groups) (top : Slot) : Classes.Label → Prop
  | .tagged tag => g.tags[tag]? = some top
  | .single number => g.forest.Has top ∧ top.index = number ∧ ∀ tag : String, g.tags[tag]? ≠ some top

/-- The classes that groups stand for. -/
structure Represents (g : Groups) (a : Classes) : Prop where
  flat : g.forest.Flat
  size_eq : g.forest.size = a.count
  /-- The slot of a tag is in the forest, and a root. -/
  top_of_tag : ∀ {tag : String} {top : Slot}, g.tags[tag]? = some top →
    g.forest.Has top ∧ g.forest.parent top = top
  tag_inj : ∀ {tag other : String} {top : Slot}, g.tags[tag]? = some top →
    g.tags[other]? = some top → tag = other
  live : ∀ key, (g.slot? key).isSome = (a.label? key).isSome
  home : ∀ {key slot label}, g.slot? key = some slot → a.label? key = some label →
    g.forest.Has slot ∧ g.StandsFor (g.forest.parent slot) label
  type_eq : ∀ {label top}, g.StandsFor top label → g.forest.pin top = a.type? label
  /-- A tag that was never used has no type. -/
  unused : ∀ {tag : String}, g.tags[tag]? = none → a.type? (.tagged tag) = none
  /-- Nor has a registration that is still to come. -/
  fresh : ∀ {number}, a.count ≤ number → a.type? (.single number) = none
  alone : ∀ {key other number}, a.label? key = some (.single number) →
    a.label? other = some (.single number) → key = other

namespace Represents

variable {g : Groups} {a : Classes}

theorem empty : Groups.empty.Represents Classes.empty where
  flat := by
    refine ⟨fun slot => ?_, fun slot h => absurd h (Nat.not_lt_zero _)⟩
    rw [Forest.parent_of_not_has (Nat.not_lt_zero _), Forest.parent_of_not_has (Nat.not_lt_zero _)]
  size_eq := rfl
  top_of_tag h := by simp [Groups.empty] at h
  tag_inj h := by simp [Groups.empty] at h
  live key := by simp [Groups.empty, slot?, Classes.empty]
  home h := by simp [Groups.empty, slot?] at h
  type_eq {label top} h := Forest.pin_of_not_has (Nat.not_lt_zero _)
  unused _ := rfl
  fresh _ := rfl
  alone h := by simp [Classes.empty] at h

/-- A slot stands for one class only. -/
theorem label_eq (h : g.Represents a) {top : Slot} {label other : Classes.Label}
    (hlabel : g.StandsFor top label) (hother : g.StandsFor top other) : label = other := by
  cases label with
  | tagged tag =>
    cases other with
    | tagged tag' => rw [h.tag_inj hlabel hother]
    | single number => exact absurd hlabel (hother.2.2 tag)
  | single number =>
    cases other with
    | tagged tag => exact absurd hother (hlabel.2.2 tag)
    | single number' => rw [← hlabel.2.1, ← hother.2.1]

/-- A class has one slot only that stands for it. -/
theorem top_eq {top other : Slot} {label : Classes.Label}
    (htop : g.StandsFor top label) (hother : g.StandsFor other label) : top = other := by
  cases label with
  | tagged tag => exact Option.some.inj (htop.symm.trans hother)
  | single number => exact Slot.index_inj (htop.2.1.trans hother.2.1.symm)

theorem label_of_slot (h : g.Represents a) {key : PortKey} {slot : Slot}
    (hslot : g.slot? key = some slot) :
    ∃ label, a.label? key = some label ∧ g.forest.Has slot ∧
      g.StandsFor (g.forest.parent slot) label := by
  have hlive := h.live key
  rw [hslot, Option.isSome_some] at hlive
  obtain ⟨label, hlabel⟩ := Option.isSome_iff_exists.mp hlive.symm
  exact ⟨label, hlabel, h.home hslot hlabel⟩

theorem slot_of_label (h : g.Represents a) {key : PortKey} {label : Classes.Label}
    (hlabel : a.label? key = some label) :
    ∃ slot, g.slot? key = some slot ∧ g.forest.Has slot ∧
      g.StandsFor (g.forest.parent slot) label := by
  have hlive := h.live key
  rw [hlabel, Option.isSome_some] at hlive
  obtain ⟨slot, hslot⟩ := Option.isSome_iff_exists.mp hlive
  exact ⟨slot, hslot, h.home hslot hlabel⟩

theorem label_none (h : g.Represents a) {key : PortKey} (hslot : g.slot? key = none) :
    a.label? key = none := by
  have hlive := h.live key
  rw [hslot, Option.isSome_none] at hlive
  exact Option.isSome_eq_false_iff.mp hlive.symm |> Option.isNone_iff_eq_none.mp

end Represents

/-! ## Joining -/

theorem slot?_join (g : Groups) (key : PortKey) (tag? : Option String) :
    (g.join key tag?).2.slot? key = some (g.join key tag?).1 := by
  have hslot : (g.slots.insert key g.forest.grow.1)[key]? = some g.forest.grow.1 :=
    Std.ExtTreeMap.getElem?_insert_self
  cases tag? with
  | none => exact hslot
  | some tag =>
    simp only [join]
    cases g.tags[tag]? with
    | none => exact hslot
    | some top => exact hslot

theorem slot?_leave (g : Groups) (key other : PortKey) :
    (g.leave key).slot? other = if other = key then none else g.slot? other :=
  Lookup.getElem?_erase g.slots key other

/-- The slot that stands for the class of the tag of a new port. -/
def topFor (g : Groups) (tag? : Option String) : Slot :=
  (tag?.bind fun tag => g.tags[tag]?).getD g.forest.grow.1

/-- What a join changes. -/
structure Joined (g : Groups) (key : PortKey) (tag? : Option String) (after : Groups) : Prop where
  flat : after.forest.Flat
  size_eq : after.forest.size = g.forest.size + 1
  parent_eq : ∀ slot, after.forest.parent slot =
    if slot = g.forest.grow.1 then g.topFor tag? else g.forest.parent slot
  pin_eq : ∀ slot, after.forest.pin slot = g.forest.pin slot
  slot_eq : ∀ other, after.slot? other =
    if other = key then some g.forest.grow.1 else g.slot? other
  tag_eq : ∀ tag : String, after.tags[tag]? =
    if tag? = some tag ∧ g.tags[tag]? = none then some g.forest.grow.1 else g.tags[tag]?

/-- A new root changes no parent: the slot was its own parent before it came in. -/
theorem parent_grow_eq {g : Groups} (few : g.forest.size < UInt32.size) (slot : Slot) :
    g.forest.grow.2.parent slot =
      if slot = g.forest.grow.1 then g.forest.grow.1 else g.forest.parent slot := by
  rw [Forest.parent_grow]
  split
  · rename_i h
    rw [h, Forest.parent_of_not_has (Forest.not_has_grow few)]
  · rfl

theorem joined_join {g : Groups} {a : Classes} (h : g.Represents a)
    (few : g.forest.size < UInt32.size) (key : PortKey) (tag? : Option String) :
    g.Joined key tag? (g.join key tag?).2 := by
  cases tag? with
  | none =>
    exact {
      flat := h.flat.grow
      size_eq := Forest.size_grow _
      parent_eq := parent_grow_eq few
      pin_eq := Forest.pin_grow _
      slot_eq := Lookup.getElem?_insert g.slots key _
      tag_eq := fun tag => by simp [join] }
  | some tag =>
    cases htag : g.tags[tag]? with
    | none =>
      have htop : g.topFor (some tag) = g.forest.grow.1 := by
        rw [topFor, Option.bind_some, htag, Option.getD_none]
      simp only [join, htag]
      exact {
        flat := h.flat.grow
        size_eq := Forest.size_grow _
        parent_eq := by
          rw [htop]
          exact parent_grow_eq few
        pin_eq := Forest.pin_grow _
        slot_eq := Lookup.getElem?_insert g.slots key _
        tag_eq := fun other => by
          rw [Lookup.getElem?_insert]
          by_cases ho : other = tag
          · subst ho
            rw [if_pos rfl, if_pos ⟨rfl, htag⟩]
          · rw [if_neg ho, if_neg (fun hc => ho (Option.some.inj hc.1).symm)] }
    | some top =>
      obtain ⟨hhas, hroot⟩ := h.top_of_tag htag
      have htop : g.topFor (some tag) = top := by
        rw [topFor, Option.bind_some, htag, Option.getD_some]
      simp only [join, htag]
      rw [Forest.union_grow h.flat few hhas hroot]
      exact {
        flat := h.flat.join few hhas hroot
        size_eq := by rw [Forest.size_hang, Forest.size_grow]
        parent_eq := by
          rw [htop]
          exact Forest.parent_join _ top
        pin_eq := Forest.pin_join few top
        slot_eq := Lookup.getElem?_insert g.slots key _
        tag_eq := fun other => by
          rw [if_neg]
          rintro ⟨ho, hnone⟩
          rw [← Option.some.inj ho, htag] at hnone
          exact absurd hnone (Option.some_ne_none top) }

namespace Represents

variable {g after : Groups} {a : Classes} {key : PortKey} {tag? : Option String}

theorem topFor_root (h : g.Represents a) (few : g.forest.size < UInt32.size)
    (hj : g.Joined key tag? after) :
    after.forest.Has (g.topFor tag?) ∧ after.forest.parent (g.topFor tag?) = g.topFor tag? := by
  have hnew : after.forest.Has g.forest.grow.1 := by
    rw [Forest.Has, Forest.index_grow few, hj.size_eq]
    exact Nat.lt_succ_self _
  rw [hj.parent_eq]
  cases htop : tag?.bind fun tag => g.tags[tag]? with
  | none =>
    rw [topFor, htop, Option.getD_none, if_pos rfl]
    exact ⟨hnew, rfl⟩
  | some top =>
    obtain ⟨tag, -, htag⟩ := Option.bind_eq_some_iff.mp htop
    obtain ⟨hhas, hroot⟩ := h.top_of_tag htag
    rw [topFor, htop, Option.getD_some, hroot]
    refine ⟨?_, ite_self _⟩
    rw [Forest.Has, hj.size_eq]
    exact Nat.lt_succ_of_lt hhas

theorem standsFor_of_joined (few : g.forest.size < UInt32.size) (hj : g.Joined key tag? after)
    {top : Slot} {label : Classes.Label} (htop : g.StandsFor top label) :
    after.StandsFor top label := by
  cases label with
  | tagged tag =>
    have htag : g.tags[tag]? = some top := htop
    change after.tags[tag]? = some top
    -- A tag that has a slot keeps it.
    rw [hj.tag_eq, if_neg (fun hc => by rw [htag] at hc; exact absurd hc.2 (Option.some_ne_none _)),
      htag]
  | single number =>
    obtain ⟨hhas, hindex, hno⟩ := htop
    refine ⟨?_, hindex, fun tag => ?_⟩
    · rw [Forest.Has, hj.size_eq]
      exact Nat.lt_succ_of_lt hhas
    · rw [hj.tag_eq]
      split
      · intro hc
        exact Forest.not_has_grow few (Option.some.inj hc ▸ hhas)
      · exact hno tag

theorem standsFor_next (h : g.Represents a) (few : g.forest.size < UInt32.size)
    (hj : g.Joined key tag? after) : after.StandsFor (g.topFor tag?) (a.next tag?) := by
  cases tag? with
  | none =>
    refine ⟨(h.topFor_root few hj).1, ?_, fun tag => ?_⟩
    · rw [topFor, Option.bind_none, Option.getD_none, Forest.index_grow few, h.size_eq]
    · rw [hj.tag_eq, if_neg (fun hc => nomatch hc.1)]
      intro hc
      exact Forest.not_has_grow few (h.top_of_tag hc).1
  | some tag =>
    change after.tags[tag]? = some (g.topFor (some tag))
    rw [hj.tag_eq, topFor, Option.bind_some]
    cases htag : g.tags[tag]? with
    | none => rw [if_pos ⟨rfl, rfl⟩, Option.getD_none]
    | some top => rw [if_neg (fun hc => nomatch hc.2), Option.getD_some]

theorem single_lt (h : g.Represents a) {other : PortKey} {number : Nat}
    (hlabel : a.label? other = some (.single number)) : number < a.count := by
  obtain ⟨slot, -, -, hhas, hindex, -⟩ := h.slot_of_label hlabel
  rw [← h.size_eq, ← hindex]
  exact hhas

theorem top_of_joined (h : g.Represents a) (few : g.forest.size < UInt32.size)
    (hj : g.Joined key tag? after) {tag : String} {top : Slot} (htag : after.tags[tag]? = some top) :
    after.forest.Has top ∧ after.forest.parent top = top := by
  rw [hj.tag_eq] at htag
  split at htag
  · rename_i hnew
    have htop : g.topFor tag? = top := by
      rw [topFor, hnew.1, Option.bind_some, hnew.2, Option.getD_none, Option.some.inj htag]
    rw [← htop]
    exact h.topFor_root few hj
  · obtain ⟨hhas, hroot⟩ := h.top_of_tag htag
    have hne : top ≠ g.forest.grow.1 := fun hc => Forest.not_has_grow few (hc ▸ hhas)
    rw [Forest.Has, hj.size_eq, hj.parent_eq, if_neg hne]
    exact ⟨Nat.lt_succ_of_lt hhas, hroot⟩

theorem tag_inj_of_joined (h : g.Represents a) (few : g.forest.size < UInt32.size)
    (hj : g.Joined key tag? after) {tag other : String} {top : Slot}
    (htag : after.tags[tag]? = some top) (hother : after.tags[other]? = some top) :
    tag = other := by
  -- A slot that a tag had before is in the forest already, so it is not the new one.
  have hold {t : String} (ht : g.tags[t]? = some top) (hc : g.forest.grow.1 = top) : False :=
    Forest.not_has_grow few (hc ▸ (h.top_of_tag ht).1)
  rw [hj.tag_eq] at htag hother
  split at htag
  · rename_i hnew
    split at hother
    · rename_i hnew'
      exact Option.some.inj (hnew.1.symm.trans hnew'.1)
    · exact (hold hother (Option.some.inj htag)).elim
  · split at hother
    · exact (hold htag (Option.some.inj hother)).elim
    · exact h.tag_inj htag hother

/-- The new slot has no pin, and no class that is still to come has a type. -/
theorem type_of_joined (h : g.Represents a) (few : g.forest.size < UInt32.size)
    (hj : g.Joined key tag? after) {label : Classes.Label} {top : Slot}
    (htop : after.StandsFor top label) : after.forest.pin top = a.type? label := by
  have hfresh : g.forest.pin g.forest.grow.1 = none :=
    Forest.pin_of_not_has (Forest.not_has_grow few)
  rw [hj.pin_eq]
  cases label with
  | tagged tag =>
    have htag : after.tags[tag]? = some top := htop
    rw [hj.tag_eq] at htag
    split at htag
    · rename_i hnew
      rw [← Option.some.inj htag, hfresh, h.unused hnew.2]
    · exact h.type_eq htag
  | single number =>
    obtain ⟨hhas, hindex, hno⟩ := htop
    -- The new slot has the next number, and nothing is found for that yet.
    by_cases hnew : top = g.forest.grow.1
    · have hnumber : number = a.count := by
        rw [← hindex, hnew, Forest.index_grow few, h.size_eq]
      rw [hnew, hfresh, h.fresh (Nat.le_of_eq hnumber.symm)]
    · refine h.type_eq ⟨?_, hindex, fun tag htag => hno tag ?_⟩
      · rw [Forest.Has, hj.size_eq] at hhas
        have hne : top.index ≠ g.forest.size := fun hc =>
          hnew (Slot.index_inj (hc.trans (Forest.index_grow few).symm))
        rw [Forest.Has]
        omega
      · have hstands : g.StandsFor top (.tagged tag) := htag
        exact standsFor_of_joined few hj hstands

theorem join (h : g.Represents a) (few : g.forest.size < UInt32.size) (key : PortKey)
    (tag? : Option String) : (g.join key tag?).2.Represents (a.join key tag?) := by
  have hj := joined_join h few key tag?
  exact {
    flat := hj.flat
    size_eq := by rw [hj.size_eq, h.size_eq]; rfl
    top_of_tag := h.top_of_joined few hj
    tag_inj := h.tag_inj_of_joined few hj
    live := fun other => by
      rw [hj.slot_eq, Classes.label?_join]
      by_cases ho : other = key
      · rw [if_pos ho, if_pos ho]
        rfl
      · rw [if_neg ho, if_neg ho, h.live other]
    home := fun {other slot label} hslot hlabel => by
      rw [hj.slot_eq] at hslot
      rw [Classes.label?_join] at hlabel
      by_cases ho : other = key
      · rw [if_pos ho] at hslot hlabel
        rw [← Option.some.inj hslot, ← Option.some.inj hlabel, hj.parent_eq, if_pos rfl, Forest.Has,
          hj.size_eq, Forest.index_grow few]
        exact ⟨Nat.lt_succ_self _, h.standsFor_next few hj⟩
      · rw [if_neg ho] at hslot hlabel
        obtain ⟨hhas, hstands⟩ := h.home hslot hlabel
        have hold : slot ≠ g.forest.grow.1 := fun hc => Forest.not_has_grow few (hc ▸ hhas)
        rw [hj.parent_eq, if_neg hold, Forest.Has, hj.size_eq]
        exact ⟨Nat.lt_succ_of_lt hhas, standsFor_of_joined few hj hstands⟩
    type_eq := h.type_of_joined few hj
    unused := fun {tag} htag => by
      rw [hj.tag_eq] at htag
      split at htag
      · exact absurd htag (Option.some_ne_none _)
      · exact h.unused htag
    fresh := fun hle => h.fresh (Nat.le_of_succ_le hle)
    alone := fun {one other number} hone hother => by
      rw [Classes.label?_join] at hone hother
      -- Only the new port can have the next number.
      have hnext (hn : a.next tag? = .single number) : number = a.count := by
        cases tag? with
        | none => exact (Classes.Label.single.inj hn).symm
        | some tag => cases hn
      split at hone
      · rename_i ho
        split at hother
        · rename_i ho'
          rw [ho, ho']
        · have := h.single_lt hother
          have := hnext (Option.some.inj hone)
          omega
      · split at hother
        · have := h.single_lt hone
          have := hnext (Option.some.inj hother)
          omega
        · exact h.alone hone hother }

theorem leave (h : g.Represents a) (key : PortKey) : (g.leave key).Represents (a.leave key) where
  flat := h.flat
  size_eq := h.size_eq
  top_of_tag := h.top_of_tag
  tag_inj := h.tag_inj
  live other := by
    rw [slot?_leave, Classes.label?_leave]
    by_cases ho : other = key
    · rw [if_pos ho, if_pos ho]
      rfl
    · rw [if_neg ho, if_neg ho, h.live other]
  home {other slot label} hslot hlabel := by
    rw [slot?_leave] at hslot
    rw [Classes.label?_leave] at hlabel
    by_cases ho : other = key
    · rw [if_pos ho] at hslot
      exact nomatch hslot
    · rw [if_neg ho] at hslot hlabel
      exact h.home hslot hlabel
  type_eq := h.type_eq
  unused := h.unused
  fresh := h.fresh
  alone {one other number} hone hother := by
    rw [Classes.label?_leave] at hone hother
    by_cases ho : one = key
    · rw [if_pos ho] at hone
      exact nomatch hone
    · by_cases ho' : other = key
      · rw [if_pos ho'] at hother
        exact nomatch hother
      · rw [if_neg ho] at hone
        rw [if_neg ho'] at hother
        exact h.alone hone hother

/-! ## Pinning -/

theorem has_of_standsFor (h : g.Represents a) {top : Slot} {label : Classes.Label}
    (htop : g.StandsFor top label) : g.forest.Has top := by
  cases label with
  | tagged tag => exact (h.top_of_tag htop).1
  | single number => exact htop.1

theorem standsFor_pinned {root top : Slot} {type : String} {label : Classes.Label} :
    (g.pinned root type).StandsFor top label ↔ g.StandsFor top label := by
  cases label with
  | tagged tag => exact Iff.rfl
  | single number => simp only [StandsFor, Forest.Has, pinned, Forest.size_setPin]

/-- A pin on the slot that stands for a class is a type for this class and for no other. -/
theorem pinned (h : g.Represents a) {top : Slot} {label : Classes.Label}
    (htop : g.StandsFor top label) (type : String) :
    (g.pinned top type).Represents (a.pin label type) where
  flat := pinned_flat h.flat top type
  size_eq := by
    change (g.forest.setPin top type).size = a.count
    rw [Forest.size_setPin, h.size_eq]
  top_of_tag htag := by
    simp only [Groups.pinned, Forest.Has, Forest.size_setPin, Forest.parent_setPin]
    exact h.top_of_tag htag
  tag_inj := h.tag_inj
  live := h.live
  home hslot hlabel := by
    rw [standsFor_pinned]
    simp only [Groups.pinned, Forest.Has, Forest.size_setPin, Forest.parent_setPin]
    exact h.home hslot hlabel
  type_eq {label' other} hother := by
    rw [standsFor_pinned] at hother
    change (g.forest.setPin top type).pin other = if label' = label then some type else a.type? label'
    rw [Forest.pin_setPin (h.has_of_standsFor htop), ← h.type_eq hother]
    -- The slot and the class tell each other, so both sides change at the same place.
    by_cases ho : other = top
    · rw [if_pos ho, if_pos (h.label_eq (ho ▸ hother) htop)]
    · have hne : label' ≠ label := fun hc => ho (top_eq (hc ▸ hother) htop)
      rw [if_neg ho, if_neg hne]
  unused {tag} htag := by
    change (if _ = label then some type else a.type? (.tagged tag)) = none
    rw [if_neg, h.unused htag]
    rintro rfl
    exact absurd (htop.symm.trans htag) (Option.some_ne_none _)
  fresh {number} hle := by
    change (if _ = label then some type else a.type? (.single number)) = none
    rw [if_neg, h.fresh hle]
    rintro rfl
    have hlt : top.index < g.forest.size := htop.1
    rw [htop.2.1, h.size_eq] at hlt
    exact absurd hlt (Nat.not_lt_of_le hle)
  alone := h.alone

/-- What a proposal finds and does. -/
theorem settle_spec (h : g.Represents a) (key : PortKey) (type : String) :
    (g.settle key type).1 = a.settlement key type (g.members key).1 ∧
      (g.settle key type).2.Represents (a.settle key type) := by
  rw [settle_eq h.flat, members_eq h.flat, Classes.settlement, Classes.settle]
  cases hslot : g.slot? key with
  | none =>
    rw [h.label_none hslot]
    exact ⟨rfl, h⟩
  | some slot =>
    obtain ⟨label, hlabel, -, hstands⟩ := h.label_of_slot hslot
    rw [hlabel]
    dsimp only
    rw [← h.type_eq hstands]
    cases hpin : g.forest.pin (g.forest.parent slot) with
    | some found => exact ⟨rfl, h⟩
    | none => exact ⟨rfl, h.pinned hstands type⟩

/-! ## Answers -/

theorem pin_spec (h : g.Represents a) (key : PortKey) : (g.pin key).1 = a.typeOf key := by
  rw [pin_eq h.flat, Classes.typeOf]
  cases hslot : g.slot? key with
  | none => rw [h.label_none hslot, Option.bind_none, Option.bind_none]
  | some slot =>
    obtain ⟨label, hlabel, -, hstands⟩ := h.label_of_slot hslot
    rw [hlabel, Option.bind_some, Option.bind_some, h.type_eq hstands]

theorem pinOfTag_spec (h : g.Represents a) (tag : String) :
    (g.pinOfTag tag).1 = a.type? (.tagged tag) := by
  rw [pinOfTag_eq h.flat]
  cases htag : g.tags[tag]? with
  | none => rw [Option.bind_none, h.unused htag]
  | some top =>
    have hstands : g.StandsFor top (.tagged tag) := htag
    rw [Option.bind_some, (h.top_of_tag htag).2, h.type_eq hstands]

/-- Ports have one root if they are in one class, and only then. -/
theorem find_spec (h : g.Represents a) {key other : PortKey} {slot slot' : Slot}
    (hslot : g.slot? key = some slot) (hslot' : g.slot? other = some slot') :
    (g.find slot).1 = (g.find slot').1 ↔ a.label? key = a.label? other := by
  obtain ⟨label, hlabel, -, hstands⟩ := h.label_of_slot hslot
  obtain ⟨label', hlabel', -, hstands'⟩ := h.label_of_slot hslot'
  rw [find_eq h.flat, find_eq h.flat, hlabel, hlabel', Option.some.injEq]
  change g.forest.parent slot = g.forest.parent slot' ↔ label = label'
  constructor
  · intro hroot
    exact h.label_eq hstands (hroot ▸ hstands')
  · intro hsame
    exact top_eq hstands (hsame ▸ hstands')

theorem members_spec (h : g.Represents a) (key : PortKey) :
    a.AreMembers key (g.members key).1 := by
  rw [members_eq h.flat]
  cases hslot : g.slot? key with
  | none =>
    refine ⟨List.Pairwise.nil, fun other => ?_⟩
    simp only [Option.elim_none, List.not_mem_nil, h.label_none hslot, reduceCtorEq, false_and,
      exists_false]
  | some slot =>
    refine ⟨ordered_below g _, fun other => ?_⟩
    obtain ⟨label, hlabel, -, hstands⟩ := h.label_of_slot hslot
    rw [Option.elim_some, mem_below, hlabel]
    constructor
    · rintro ⟨slot', hslot', hroot⟩
      obtain ⟨label', hlabel', -, hstands'⟩ := h.label_of_slot hslot'
      rw [hroot] at hstands'
      exact ⟨label, rfl, by rw [hlabel', h.label_eq hstands' hstands]⟩
    · rintro ⟨label', hlabel', hother⟩
      obtain ⟨slot', hslot', -, hstands'⟩ := h.slot_of_label hother
      exact ⟨slot', hslot', top_eq hstands' (Option.some.inj hlabel' ▸ hstands)⟩

end Represents

/-! ## Any operations in any order -/

/-- What can be done with groups, or asked of them. -/
inductive Act where
  | join (key : PortKey) (tag? : Option String)
  | leave (key : PortKey)
  | slot (key : PortKey)
  | find (slot : Slot)
  | members (key : PortKey)
  | pin (key : PortKey)
  | pinOfTag (tag : String)
  | settle (key : PortKey) (type : String)
  deriving DecidableEq

namespace Act

/-- Whether a port is registered. -/
def isJoin : Act → Bool
  | join _ _ => true
  | leave _ | slot _ | find _ | members _ | pin _ | pinOfTag _ | settle _ _ => false

/-- What is left of groups. Questions may move slots, too. -/
def onGroups (g : Groups) : Act → Groups
  | join key tag? => (g.join key tag?).2
  | leave key => g.leave key
  | slot _ => g
  | find place => (g.find place).2
  | members key => (g.members key).2
  | pin key => (g.pin key).2
  | pinOfTag tag => (g.pinOfTag tag).2
  | settle key type => (g.settle key type).2

/-- What is left of classes. -/
def onClasses (a : Classes) : Act → Classes
  | join key tag? => a.join key tag?
  | leave key => a.leave key
  | settle key type => a.settle key type
  | slot _ | find _ | members _ | pin _ | pinOfTag _ => a

end Act

theorem Represents.act {g : Groups} {a : Classes} (h : g.Represents a) (act : Act)
    (few : act.isJoin = true → g.forest.size < UInt32.size) :
    (act.onGroups g).Represents (act.onClasses a) := by
  cases act with
  | join key tag? => exact h.join (few rfl) key tag?
  | leave key => exact h.leave key
  | slot key => exact h
  | find slot =>
    rw [Act.onGroups, find_eq h.flat]
    exact h
  | members key =>
    rw [Act.onGroups, members_eq h.flat]
    exact h
  | pin key =>
    rw [Act.onGroups, pin_eq h.flat]
    exact h
  | pinOfTag tag =>
    rw [Act.onGroups, pinOfTag_eq h.flat]
    exact h
  | settle key type => exact (h.settle_spec key type).2

theorem Act.size_onGroups (g : Groups) (act : Act) :
    (act.onGroups g).forest.size = g.forest.size + if act.isJoin then 1 else 0 := by
  cases act with
  | join key tag? => exact g.size_join key tag?
  | leave key => rfl
  | slot key => rfl
  | find slot => exact g.size_find slot
  | members key => exact g.size_members key
  | pin key => exact g.size_pin key
  | pinOfTag tag => exact g.size_pinOfTag tag
  | settle key type => exact g.size_settle key type

/-- A run that gives out no slot twice has room for its first act, and then for the others. -/
theorem Act.room {g : Groups} {act : Act} {rest : List Act}
    (few : g.forest.size + (act :: rest).countP isJoin ≤ UInt32.size) :
    (act.isJoin = true → g.forest.size < UInt32.size) ∧
      (act.onGroups g).forest.size + rest.countP isJoin ≤ UInt32.size := by
  rw [List.countP_cons] at few
  constructor
  · intro hjoin
    rw [if_pos hjoin] at few
    omega
  · rw [size_onGroups]
    omega

theorem Represents.run {g : Groups} {a : Classes} (h : g.Represents a) (acts : List Act)
    (few : g.forest.size + acts.countP Act.isJoin ≤ UInt32.size) :
    (acts.foldl (fun g act => act.onGroups g) g).Represents
      (acts.foldl (fun a act => act.onClasses a) a) := by
  induction acts generalizing g a with
  | nil => exact h
  | cons act rest ih =>
    obtain ⟨hone, hrest⟩ := Act.room few
    exact ih (h.act act hone) hrest

end Groups

/-- Groups answer as their classes tell, after any operations in any order: who is registered, who
has the same root, who is in a class, which type it has, and what comes of a proposal. -/
theorem groups_run_answers (acts : List Groups.Act)
    (few : acts.countP Groups.Act.isJoin < UInt32.size) :
    let g := acts.foldl (fun g act => act.onGroups g) Groups.empty
    let a := acts.foldl (fun a act => act.onClasses a) Classes.empty
    (∀ key, (g.slot? key).isSome = (a.label? key).isSome) ∧
      (∀ key tag?, (g.join key tag?).2.slot? key = some (g.join key tag?).1) ∧
      (∀ key other slot slot', g.slot? key = some slot → g.slot? other = some slot' →
        ((g.find slot).1 = (g.find slot').1 ↔ a.label? key = a.label? other)) ∧
      (∀ key, a.AreMembers key (g.members key).1) ∧
      (∀ key, (g.pin key).1 = a.typeOf key) ∧
      (∀ tag, (g.pinOfTag tag).1 = a.type? (.tagged tag)) ∧
      ∀ key type, (g.settle key type).1 = a.settlement key type (g.members key).1 := by
  intro g a
  have h : g.Represents a := Groups.Represents.empty.run acts (by
    rw [Groups.empty, Forest.empty, Forest.size]
    simpa using Nat.le_of_lt few)
  exact ⟨h.live, fun key tag? => Groups.slot?_join g key tag?,
    fun _ _ _ _ hslot hslot' => h.find_spec hslot hslot', h.members_spec, h.pin_spec,
    h.pinOfTag_spec, fun key type => (h.settle_spec key type).1⟩

/-- A class finds its type, loses all its ports, and gets a new one. -/
def Groups.Act.outlived : List Groups.Act :=
  [.join (.input "left") (some "t"), .join (.output "right") (some "t"),
   .settle (.output "right") "image", .leave (.input "left"), .join (.output "right") none,
   .members (.output "right"), .leave (.output "right"), .join (.input "late") (some "t")]

/-- The new port has the type that was found before. -/
theorem groups_run_answers_outlived :
    Groups.Act.outlived.countP Groups.Act.isJoin < UInt32.size ∧
      ((Groups.Act.outlived.foldl (fun g act => act.onGroups g) Groups.empty).pin
        (.input "late")).1 = some "image" := by
  have few : Groups.Act.outlived.countP Groups.Act.isJoin < UInt32.size := by decide
  obtain ⟨-, -, -, -, hpin, -⟩ := groups_run_answers Groups.Act.outlived few
  exact ⟨few, (hpin (.input "late")).trans (by decide)⟩

end Dataflow
