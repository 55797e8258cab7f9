import Dataflow.Proofs.Groups.Guarded
import Dataflow.Proofs.Groups.Refinement

/-!
# The shape of groups

Whatever is done to groups, their forest keeps one shape. The slot of a tag is a root, every slot is a
root or hangs directly below one, no rank is above one, and only roots have pins. So a look-up has
nothing to shorten, and a slot that comes into a class has no pin that could get lost: no guarded
operation is ever without result. The main statement is `groups_run_shape`.
-/

namespace Dataflow

namespace Groups

namespace Act

/-- What is left of groups, if the guarded operation has a result. -/
def onGroups? (g : Groups) : Act → Option Groups
  | join key tag? => (g.join? key tag?).map Prod.snd
  | leave key => some (g.leave key)
  | slot _ => some g
  | find place => (g.find? place).map Prod.snd
  | members key => (g.members? key).map Prod.snd
  | pin key => (g.pin? key).map Prod.snd
  | pinOfTag tag => (g.pinOfTag? tag).map Prod.snd
  | settle key type => (g.settle? key type).map Prod.snd

/-- The slots that an act hands out. -/
def handsOut (g : Groups) : Act → List Slot
  | join key tag? => [(g.join key tag?).1]
  | slot key => (g.slot? key).toList
  | find place => [(g.find place).1]
  | leave _ | members _ | pin _ | pinOfTag _ | settle _ _ => []

/-- The slot that an act is asked to look up. -/
def sought? : Act → Option Slot
  | find place => some place
  | join _ _ | leave _ | slot _ | members _ | pin _ | pinOfTag _ | settle _ _ => none

/-- Only slots are looked up that were handed out before. -/
def Known (g : Groups) (handed : List Slot) : List Act → Prop
  | [] => True
  | act :: rest => (∀ slot ∈ act.sought?, slot ∈ handed) ∧
      Known (act.onGroups g) (act.handsOut g ++ handed) rest

instance decidableKnown : (g : Groups) → (handed : List Slot) → (acts : List Act) →
    Decidable (Known g handed acts)
  | _, _, [] => .isTrue trivial
  | g, handed, act :: rest =>
    have := decidableKnown (act.onGroups g) (act.handsOut g ++ handed) rest
    inferInstanceAs (Decidable (_ ∧ _))

/-- Every pin stays where it is, and a new one comes only from a proposal, for a class that has none
and on the root of that class. -/
def KeepsPins (g : Groups) (act : Act) : Prop :=
  ∀ slot, (act.onGroups g).forest.pin slot = g.forest.pin slot ∨
    g.forest.pin slot = none ∧ ∃ key type home, act = .settle key type ∧
      g.slot? key = some home ∧ g.forest.root home = slot ∧
      (act.onGroups g).forest.pin slot = some type

end Act

/-- The groups that acts lead to. -/
def ofActs (acts : List Act) : Groups := acts.foldl (fun g act => act.onGroups g) empty

/-- The groups that acts lead to, if every guarded operation has a result. -/
def ofActs? (acts : List Act) : Option Groups := acts.foldlM (fun g act => act.onGroups? g) empty

/-! ## What an act does to the forest -/

/-- An act leaves the forest as it is, adds a slot, hangs the new slot below that of its tag, or pins
a type on a root that has none. -/
inductive Change (g : Groups) : Act → Forest → Prop where
  | kept (act : Act) : Change g act g.forest
  | grown (key : PortKey) (tag? : Option String) : Change g (.join key tag?) g.forest.grow.2
  | hung (key : PortKey) {tag : String} {top : Slot} (few : g.forest.size < UInt32.size)
      (first : g.tags[tag]? = some top) (has : g.forest.Has top) (root : g.forest.parent top = top) :
      Change g (.join key (some tag)) (g.forest.grow.2.hang top g.forest.grow.1)
  | pinned {key : PortKey} {home : Slot} (type : String) (slot : g.slot? key = some home)
      (has : g.forest.Has (g.forest.parent home)) (unpinned : g.forest.pin (g.forest.parent home) = none) :
      Change g (.settle key type) (g.forest.setPin (g.forest.parent home) type)

theorem Represents.change {g : Groups} {a : Classes} (h : g.Represents a) (act : Act)
    (few : act.isJoin = true → g.forest.size < UInt32.size) :
    g.Change act (act.onGroups g).forest := by
  cases act with
  | join key tag? =>
    cases tag? with
    | none => exact .grown key none
    | some tag =>
      simp only [Act.onGroups, Groups.join]
      cases htag : g.tags[tag]? with
      | none => exact .grown key (some tag)
      | some top =>
        obtain ⟨has, root⟩ := h.top_of_tag htag
        dsimp only
        rw [Forest.union_grow h.flat (few rfl) has root]
        exact .hung key (few rfl) htag has root
  | leave key => exact .kept _
  | slot key => exact .kept _
  | find slot =>
    rw [Act.onGroups, find_eq h.flat]
    exact .kept _
  | members key =>
    rw [Act.onGroups, members_eq h.flat]
    exact .kept _
  | pin key =>
    rw [Act.onGroups, pin_eq h.flat]
    exact .kept _
  | pinOfTag tag =>
    rw [Act.onGroups, pinOfTag_eq h.flat]
    exact .kept _
  | settle key type =>
    rw [Act.onGroups, settle_eq h.flat]
    cases hslot : g.slot? key with
    | none => exact .kept _
    | some home =>
      dsimp only
      cases hpin : g.forest.pin (g.forest.parent home) with
      | some found => exact .kept _
      | none =>
        obtain ⟨label, -, has, -⟩ := h.label_of_slot hslot
        exact .pinned type hslot (h.flat.has_parent home has) hpin

namespace Change

variable {g : Groups} {act : Act} {f : Forest}

/-- A new slot has the rank zero, and raises a root from zero to one only. -/
theorem rank_eq (h : g.Change act f) (low : ∀ slot, g.forest.rank slot = 0 ∨ g.forest.rank slot = 1)
    (slot : Slot) : f.rank slot = 0 ∨ f.rank slot = 1 := by
  cases h with
  | kept => exact low slot
  | grown =>
    rw [Forest.rank_grow]
    exact low slot
  | hung key hfew first has root =>
    rw [Forest.rank_hang (Forest.has_grow_of_has has)]
    split
    · rename_i hraised
      rw [hraised.2, Forest.rank_grow_self hfew]
      exact .inr rfl
    · rw [Forest.rank_grow]
      exact low slot
  | pinned type home has unpinned =>
    rw [Forest.rank_setPin]
    exact low slot

/-- A slot that is hung below another one is new, so that it has no pin. -/
theorem root_of_pin (h : g.Change act f) (flat : g.forest.Flat)
    (pins : ∀ slot, (g.forest.pin slot).isSome → g.forest.parent slot = slot) (slot : Slot)
    (hpin : (f.pin slot).isSome) : f.parent slot = slot := by
  cases h with
  | kept => exact pins slot hpin
  | grown =>
    rw [Forest.pin_grow] at hpin
    rw [Forest.parent_grow]
    exact pins slot hpin
  | hung key hfew first has root =>
    rw [Forest.pin_join hfew] at hpin
    have hnew : slot ≠ g.forest.grow.1 := by
      rintro rfl
      rw [Forest.pin_of_not_has (Forest.not_has_grow hfew)] at hpin
      exact nomatch hpin
    rw [Forest.parent_join, if_neg hnew]
    exact pins slot hpin
  | @pinned key home type hslot has unpinned =>
    rw [Forest.pin_setPin has] at hpin
    rw [Forest.parent_setPin]
    split at hpin
    · rename_i htop
      rw [htop, flat.parent_parent]
    · exact pins slot hpin

end Change

theorem Represents.keepsPins {g : Groups} {a : Classes} (h : g.Represents a) (act : Act)
    (few : act.isJoin = true → g.forest.size < UInt32.size) : act.KeepsPins g := by
  have hchange := h.change act few
  rw [Act.KeepsPins]
  generalize (act.onGroups g).forest = f at hchange
  intro slot
  cases hchange with
  | kept => exact .inl rfl
  | grown => exact .inl (Forest.pin_grow _ slot)
  | hung key hfew first has root => exact .inl (Forest.pin_join hfew _ slot)
  | @pinned key home type hslot has unpinned =>
    rw [Forest.pin_setPin has]
    by_cases htop : slot = g.forest.parent home
    · rw [if_pos htop, htop]
      exact .inr ⟨unpinned, key, type, home, rfl, hslot, h.flat.root_eq home, rfl⟩
    · rw [if_neg htop]
      exact .inl rfl

/-! ## The shape -/

/-- The forest is that of some classes, its ranks are low, and only roots have pins. -/
structure Shaped (g : Groups) : Prop where
  represents : ∃ a, g.Represents a
  rank_eq : ∀ slot, g.forest.rank slot = 0 ∨ g.forest.rank slot = 1
  root_of_pin : ∀ slot, (g.forest.pin slot).isSome → g.forest.parent slot = slot

namespace Shaped

variable {g : Groups}

theorem empty : Groups.empty.Shaped where
  represents := ⟨_, .empty⟩
  rank_eq _ := .inl rfl
  root_of_pin slot hpin := by
    rw [Forest.pin_of_not_has (Nat.not_lt_zero _)] at hpin
    exact nomatch hpin

theorem flat (h : g.Shaped) : g.forest.Flat := by
  obtain ⟨a, ha⟩ := h.represents
  exact ha.flat

theorem top_of_tag (h : g.Shaped) {tag : String} {top : Slot} (htag : g.tags[tag]? = some top) :
    g.forest.Has top ∧ g.forest.parent top = top := by
  obtain ⟨a, ha⟩ := h.represents
  exact ha.top_of_tag htag

theorem has_slot (h : g.Shaped) {key : PortKey} {slot : Slot} (hslot : g.slot? key = some slot) :
    g.forest.Has slot := by
  obtain ⟨a, ha⟩ := h.represents
  obtain ⟨label, -, has, -⟩ := ha.label_of_slot hslot
  exact has

/-- There is always a higher rank. -/
theorem rank_lt (h : g.Shaped) (slot : Slot) : (g.forest.rank slot).toNat + 1 < UInt8.size := by
  rcases h.rank_eq slot with hrank | hrank <;> rw [hrank] <;> decide

theorem act (h : g.Shaped) (act : Act) (few : act.isJoin = true → g.forest.size < UInt32.size) :
    (act.onGroups g).Shaped := by
  obtain ⟨a, ha⟩ := h.represents
  have hchange := ha.change act few
  exact {
    represents := ⟨_, ha.act act few⟩
    rank_eq := hchange.rank_eq h.rank_eq
    root_of_pin := hchange.root_of_pin ha.flat h.root_of_pin }

/-- In groups of this shape the guarded operation has the result of the operation. -/
theorem onGroups?_eq (h : g.Shaped) (act : Act)
    (few : act.isJoin = true → g.forest.size < UInt32.size)
    (has : ∀ slot ∈ act.sought?, g.forest.Has slot) : act.onGroups? g = some (act.onGroups g) := by
  cases act with
  | join key tag? =>
    rw [Act.onGroups?, join?_eq h.flat (few rfl) h.top_of_tag h.rank_lt]
    rfl
  | leave key => rfl
  | slot key => rfl
  | find place =>
    rw [Act.onGroups?, find?_eq h.flat (has place rfl)]
    rfl
  | members key =>
    rw [Act.onGroups?, members?_eq h.flat h.has_slot]
    rfl
  | pin key =>
    rw [Act.onGroups?, pin?_eq h.flat h.has_slot]
    rfl
  | pinOfTag tag =>
    rw [Act.onGroups?, pinOfTag?_eq h.flat fun htag => (h.top_of_tag htag).1]
    rfl
  | settle key type =>
    rw [Act.onGroups?, settle?_eq h.flat h.has_slot]
    rfl

/-- What an act hands out is in the forest. -/
theorem has_handsOut (h : g.Shaped) (act : Act)
    (few : act.isJoin = true → g.forest.size < UInt32.size)
    (has : ∀ slot ∈ act.sought?, g.forest.Has slot) {slot : Slot} (hslot : slot ∈ act.handsOut g) :
    (act.onGroups g).forest.Has slot := by
  cases act with
  | join key tag? =>
    rw [List.mem_singleton.mp hslot]
    exact (h.act _ few).has_slot (g.slot?_join key tag?)
  | slot key => exact h.has_slot (Option.mem_toList.mp hslot)
  | find place =>
    rw [List.mem_singleton.mp hslot, Act.onGroups, find_eq h.flat]
    exact h.flat.has_parent place (has place rfl)
  | leave | members | pin | pinOfTag | settle => exact absurd hslot List.not_mem_nil

end Shaped

/-! ## Any acts in any order -/

theorem Act.has_onGroups {g : Groups} (act : Act) {slot : Slot} (has : g.forest.Has slot) :
    (act.onGroups g).forest.Has slot := by
  rw [Forest.Has, act.size_onGroups]
  exact Nat.lt_add_right _ has

namespace Shaped

variable {g : Groups}

theorem run (h : g.Shaped) (acts : List Act)
    (few : g.forest.size + acts.countP Act.isJoin ≤ UInt32.size) :
    (acts.foldl (fun g act => act.onGroups g) g).Shaped := by
  induction acts generalizing g with
  | nil => exact h
  | cons act rest ih =>
    obtain ⟨hone, hrest⟩ := Act.room few
    exact ih (h.act act hone) hrest

/-- A run of guarded operations has a result, and it is that of the run. -/
theorem run? (h : g.Shaped) (acts : List Act)
    (few : g.forest.size + acts.countP Act.isJoin ≤ UInt32.size) {handed : List Slot}
    (has : ∀ slot ∈ handed, g.forest.Has slot) (known : Act.Known g handed acts) :
    acts.foldlM (fun g act => act.onGroups? g) g =
      some (acts.foldl (fun g act => act.onGroups g) g) := by
  induction acts generalizing g handed with
  | nil => rfl
  | cons act rest ih =>
    obtain ⟨hone, hrest⟩ := Act.room few
    obtain ⟨hsought, hknown⟩ := known
    have hhas : ∀ slot ∈ act.sought?, g.forest.Has slot := fun slot hslot =>
      has slot (hsought slot hslot)
    rw [List.foldlM_cons, h.onGroups?_eq act hone hhas, List.foldl_cons]
    refine ih (h.act act hone) hrest (fun slot hslot => ?_) hknown
    rcases List.mem_append.mp hslot with hnew | hold
    · exact h.has_handsOut act hone hhas hnew
    · exact act.has_onGroups (has slot hold)

/-- Pins are kept by every act of a run. -/
theorem run_keepsPins (h : g.Shaped) (before : List Act) {act : Act} {after : List Act}
    (few : g.forest.size + (before ++ act :: after).countP Act.isJoin ≤ UInt32.size) :
    act.KeepsPins (before.foldl (fun g act => act.onGroups g) g) := by
  induction before generalizing g with
  | nil =>
    obtain ⟨a, ha⟩ := h.represents
    exact ha.keepsPins act (Act.room few).1
  | cons first rest ih =>
    obtain ⟨hone, hrest⟩ := Act.room few
    exact ih (h.act first hone) hrest

end Shaped

end Groups

/-- The shape of groups after any acts in any order, where only slots are looked up that were handed
out before. No guarded operation has been without result, so that every slot that was read or written
was in the forest, no look-up has written anything, no rank has become too large, and no slot with a
pin has been joined to a class. The slot of a tag is a root, every slot is a root or hangs directly
below one, the ranks are zero and one, a look-up finds the parent and leaves the groups as they are,
only roots have pins, and no pin was ever moved or lost. -/
theorem groups_run_shape (acts : List Groups.Act)
    (few : acts.countP Groups.Act.isJoin < UInt32.size)
    (known : Groups.Act.Known Groups.empty [] acts) :
    let g := Groups.ofActs acts
    Groups.ofActs? acts = some g ∧
      (∀ (tag : String) top, g.tags[tag]? = some top →
        g.forest.Has top ∧ g.forest.parent top = top) ∧
      g.forest.Flat ∧
      (∀ slot, g.forest.rank slot = 0 ∨ g.forest.rank slot = 1) ∧
      (∀ slot, g.find slot = (g.forest.parent slot, g)) ∧
      (∀ slot, (g.forest.pin slot).isSome → g.forest.parent slot = slot) ∧
      ∀ before act after, acts = before ++ act :: after → act.KeepsPins (Groups.ofActs before) := by
  intro g
  have few : Groups.empty.forest.size + acts.countP Groups.Act.isJoin ≤ UInt32.size := by
    rw [Groups.empty, Forest.empty, Forest.size]
    simpa using Nat.le_of_lt few
  have h : g.Shaped := Groups.Shaped.empty.run acts few
  refine ⟨Groups.Shaped.empty.run? acts few (by simp) known, fun _ _ => h.top_of_tag, h.flat, h.rank_eq,
    Groups.find_eq h.flat, h.root_of_pin, ?_⟩
  rintro before act after rfl
  exact Groups.Shaped.empty.run_keepsPins before few

/-- A class finds its type, loses a port and gets another one, and slots are looked up on the way. -/
def Groups.Act.replaced : List Groups.Act :=
  [.join (.input "left") (some "t"), .join (.output "right") (some "t"), .find ⟨1⟩,
   .settle (.output "right") "image", .leave (.input "left"), .join (.output "right") none,
   .slot (.output "right"), .find ⟨2⟩, .join (.input "late") (some "t"), .find ⟨3⟩]

/-- The slot of the tag has the rank one, although its port is gone, and keeps the pin when the late
port comes below it. -/
theorem groups_run_shape_replaced :
    let g := Groups.ofActs Groups.Act.replaced
    Groups.Act.replaced.countP Groups.Act.isJoin < UInt32.size ∧
      Groups.Act.Known Groups.empty [] Groups.Act.replaced ∧
      Groups.ofActs? Groups.Act.replaced = some g ∧ g.forest.rank ⟨0⟩ = 1 ∧
      g.find ⟨3⟩ = (⟨0⟩, g) ∧ g.forest.parent ⟨0⟩ = ⟨0⟩ ∧ g.forest.pin ⟨0⟩ = some "image" := by
  intro g
  have few : Groups.Act.replaced.countP Groups.Act.isJoin < UInt32.size := by decide
  have known : Groups.Act.Known Groups.empty [] Groups.Act.replaced := by decide
  obtain ⟨hguarded, -, -, -, hfind, hroot, -⟩ := groups_run_shape Groups.Act.replaced few known
  have hparent : g.forest.parent ⟨3⟩ = ⟨0⟩ := by decide
  have hpin : g.forest.pin ⟨0⟩ = some "image" := by decide
  refine ⟨few, known, hguarded, by decide, ?_, hroot ⟨0⟩ (Option.isSome_of_eq_some hpin), hpin⟩
  rw [← hparent]
  exact hfind ⟨3⟩

end Dataflow
