import Dataflow.Proofs.Groups.Flat
import Mathlib.Data.Fintype.Card
import Mathlib.Order.Fin.Basic

/-!
# Paths to the roots

Whatever the shape of a forest, going from parent to parent ends at a root if the way leads down some
depth. A look-up moves slots closer to their roots and changes no class. To join two classes is to
hang the root of one below the root of the other, and no class loses its pin by it.
-/

namespace Dataflow

namespace Forest

/-- Paths lead upwards, and stay in the forest. -/
structure Rooted (f : Forest) : Prop where
  depth : ∃ depth : Slot → Nat, ∀ slot, f.parent slot ≠ slot → depth (f.parent slot) < depth slot
  has_parent : ∀ slot, f.Has slot → f.Has (f.parent slot)

/-! ## Climbing -/

theorem climb_parent (f : Forest) (steps : Nat) (slot : Slot) :
    f.climb (steps + 1) slot = f.climb steps (f.parent slot) := by
  rw [climb]
  by_cases h : f.parent slot = slot
  · rw [if_pos h, h, climb_of_root h]
  · rw [if_neg h]

theorem parent_climb (f : Forest) (steps : Nat) (slot : Slot) :
    f.climb (steps + 1) slot = f.parent (f.climb steps slot) := by
  induction steps generalizing slot with
  | zero => rw [climb_parent, climb, climb]
  | succ steps ih => rw [climb_parent, ih, ← climb_parent]

theorem climb_of_le {f : Forest} {slot : Slot} {i j : Nat}
    (hroot : f.parent (f.climb i slot) = f.climb i slot) (hij : i ≤ j) :
    f.climb j slot = f.climb i slot := by
  induction j, hij using Nat.le_induction with
  | base => rfl
  | succ j hij ih => rw [parent_climb, ih, hroot]

theorem root_of_root {f : Forest} {slot : Slot} (h : f.parent slot = slot) : f.root slot = slot :=
  climb_of_root h f.size

namespace Rooted

variable {f : Forest}

/-- No path is longer than the forest is large. -/
theorem parent_root (h : f.Rooted) (slot : Slot) : f.parent (f.root slot) = f.root slot := by
  by_contra hroot
  obtain ⟨depth, hdepth⟩ := h.depth
  have hopen (k : Fin (f.size + 1)) : f.parent (f.climb k slot) ≠ f.climb k slot := by
    intro hk
    rw [root, climb_of_le hk (Nat.le_of_lt_succ k.isLt)] at hroot
    exact hroot hk
  have hhas (k : Fin (f.size + 1)) : f.Has (f.climb k slot) := by
    by_contra hout
    exact hopen k (parent_of_not_has hout)
  -- A path of so many steps would pass a slot twice, but every step leads upwards.
  have hfall : StrictAnti fun k : Fin (f.size + 1) => depth (f.climb k slot) := by
    refine Fin.strictAnti_iff_succ_lt.mpr fun k => ?_
    rw [Fin.val_succ, parent_climb]
    exact hdepth _ (hopen k.castSucc)
  have hplace : Function.Injective fun k : Fin (f.size + 1) =>
      (⟨(f.climb k slot).index, hhas k⟩ : Fin f.size) := by
    intro i j hij
    have hslot : f.climb i slot = f.climb j slot := Slot.index_inj (Fin.mk.inj hij)
    exact hfall.injective (congrArg depth hslot)
  have hcard := Fintype.card_le_of_injective _ hplace
  rw [Fintype.card_fin, Fintype.card_fin] at hcard
  exact Nat.not_succ_le_self f.size hcard

theorem root_parent (h : f.Rooted) (slot : Slot) : f.root (f.parent slot) = f.root slot := by
  change f.climb f.size (f.parent slot) = f.climb f.size slot
  rw [← climb_parent, parent_climb]
  exact h.parent_root slot

theorem root_root (h : f.Rooted) (slot : Slot) : f.root (f.root slot) = f.root slot :=
  root_of_root (h.parent_root slot)

/-- What holds of roots and passes from parents to their children holds of all slots. -/
theorem induction (h : f.Rooted) {P : Slot → Prop} (hroot : ∀ slot, f.parent slot = slot → P slot)
    (hparent : ∀ slot, f.parent slot ≠ slot → P (f.parent slot) → P slot) (slot : Slot) : P slot := by
  obtain ⟨depth, hdepth⟩ := h.depth
  induction slot using (measure depth).wf.induction with
  | h slot ih =>
    by_cases hslot : f.parent slot = slot
    · exact hroot slot hslot
    · exact hparent slot hslot (ih _ (hdepth slot hslot))

/-- Roots are known by what they do at roots and along paths. -/
theorem root_eq (h : f.Rooted) {top : Slot → Slot}
    (hroot : ∀ slot, f.parent slot = slot → top slot = slot)
    (hparent : ∀ slot, top (f.parent slot) = top slot) (slot : Slot) : f.root slot = top slot := by
  induction slot using h.induction with
  | hroot slot hslot => rw [root_of_root hslot, hroot slot hslot]
  | hparent slot _ ih => rw [← h.root_parent, ih, hparent]

theorem has_root (h : f.Rooted) {slot : Slot} (hslot : f.Has slot) : f.Has (f.root slot) := by
  induction slot using h.induction with
  | hroot slot hroot => rwa [root_of_root hroot]
  | hparent slot _ ih =>
    rw [← h.root_parent]
    exact ih (h.has_parent slot hslot)

theorem depth_root_le (h : f.Rooted) {depth : Slot → Nat}
    (hdepth : ∀ slot, f.parent slot ≠ slot → depth (f.parent slot) < depth slot) (slot : Slot) :
    depth (f.root slot) ≤ depth slot := by
  induction slot using h.induction with
  | hroot slot hslot => rw [root_of_root hslot]
  | hparent slot below ih =>
    rw [← h.root_parent]
    exact Nat.le_of_lt (Nat.lt_of_le_of_lt ih (hdepth slot below))

/-- Where parents stay, roots stay. -/
theorem of_parent_eq (h : f.Rooted) {after : Forest}
    (hparent : ∀ slot, after.parent slot = f.parent slot)
    (hhas : ∀ slot, f.Has slot → after.Has slot) :
    after.Rooted ∧ ∀ slot, after.root slot = f.root slot := by
  have hrooted : after.Rooted := by
    constructor
    · simpa only [hparent] using h.depth
    · intro slot hslot
      rw [hparent]
      by_cases hin : f.Has slot
      · exact hhas _ (h.has_parent slot hin)
      · rwa [parent_of_not_has hin]
  refine ⟨hrooted, hrooted.root_eq (fun slot hslot => ?_) fun slot => ?_⟩
  · rw [hparent] at hslot
    exact root_of_root hslot
  · rw [hparent, h.root_parent]

theorem empty : Forest.empty.Rooted where
  depth := ⟨fun _ => 0, fun _ hslot => absurd (parent_of_not_has (Nat.not_lt_zero _)) hslot⟩
  has_parent _ hslot := absurd hslot (Nat.not_lt_zero _)

theorem grow (h : f.Rooted) : f.grow.2.Rooted ∧ ∀ slot, f.grow.2.root slot = f.root slot :=
  h.of_parent_eq f.parent_grow fun _ => has_grow_of_has

theorem setPin (h : f.Rooted) (slot : Slot) (type : String) :
    (f.setPin slot type).Rooted ∧ ∀ other, (f.setPin slot type).root other = f.root other :=
  h.of_parent_eq (f.parent_setPin slot type) fun _ => has_modify.mpr

end Rooted

/-! ## Looking up a root -/

/-- Paths may have been shortened, and nothing else. -/
structure Shortened (f after : Forest) : Prop where
  rooted : after.Rooted
  size_eq : after.size = f.size
  root_eq : ∀ slot, after.root slot = f.root slot
  pin_eq : ∀ slot, after.pin slot = f.pin slot

namespace Shortened

variable {f mid after : Forest}

theorem refl (h : f.Rooted) : f.Shortened f := ⟨h, rfl, fun _ => rfl, fun _ => rfl⟩

theorem trans (h : f.Shortened mid) (h' : mid.Shortened after) : f.Shortened after where
  rooted := h'.rooted
  size_eq := h'.size_eq.trans h.size_eq
  root_eq slot := (h'.root_eq slot).trans (h.root_eq slot)
  pin_eq slot := (h'.pin_eq slot).trans (h.pin_eq slot)

theorem has (h : f.Shortened after) {slot : Slot} (hslot : f.Has slot) : after.Has slot := by
  rwa [Has, h.size_eq]

end Shortened

namespace Rooted

variable {f : Forest}

theorem has_of_open {slot : Slot} (h : f.parent slot ≠ slot) : f.Has slot := by
  by_contra hout
  exact h (parent_of_not_has hout)

/-- One slot is hung directly below its root. -/
theorem shortcut (h : f.Rooted) {slot : Slot} (hopen : f.parent slot ≠ slot) :
    f.Shortened (f.modify slot fun node => { node with parent := f.root slot }) := by
  have hhas := has_of_open hopen
  have hparent := parent_setParent hhas (f.root slot)
  have hne : f.root slot ≠ slot := fun hc => hopen (hc ▸ h.parent_root slot)
  have hrooted : (f.modify slot fun node => { node with parent := f.root slot }).Rooted := by
    constructor
    · obtain ⟨depth, hdepth⟩ := h.depth
      refine ⟨depth, fun other hother => ?_⟩
      rw [hparent] at hother ⊢
      by_cases hc : other = slot
      · rw [if_pos hc, hc, ← h.root_parent]
        exact Nat.lt_of_le_of_lt (h.depth_root_le hdepth _) (hdepth slot hopen)
      · rw [if_neg hc] at hother ⊢
        exact hdepth other hother
    · intro other hother
      rw [Has, size_modify] at *
      rw [hparent]
      split
      · exact h.has_root hhas
      · exact h.has_parent other hother
  refine ⟨hrooted, size_modify f slot _, hrooted.root_eq (fun other hother => ?_) fun other => ?_, ?_⟩
  · rw [hparent] at hother
    split at hother
    · rename_i hc
      exact absurd (hother.trans hc) hne
    · exact root_of_root hother
  · rw [hparent]
    split
    · rename_i hc
      rw [h.root_root, hc]
    · exact h.root_parent other
  · exact pin_modify slot fun _ => rfl

theorem shorten (h : f.Rooted) (steps : Nat) (slot : Slot) :
    f.Shortened (f.shorten (f.root slot) steps slot) := by
  induction steps generalizing f slot with
  | zero => exact .refl h
  | succ steps ih =>
    rw [Forest.shorten]
    by_cases hdone : f.parent slot = f.root slot
    · rw [if_pos hdone]
      exact .refl h
    · have hopen : f.parent slot ≠ slot := fun hc => hdone (hc.trans (root_of_root hc).symm)
      have hshort := h.shortcut hopen
      have hrest := ih hshort.rooted (f.parent slot)
      rw [hshort.root_eq, h.root_parent] at hrest
      rw [if_neg hdone]
      exact hshort.trans hrest

theorem find (h : f.Rooted) (slot : Slot) : f.Shortened (f.find slot).2 := h.shorten f.size slot

end Rooted

theorem find_fst (f : Forest) (slot : Slot) : (f.find slot).1 = f.root slot := rfl

/-! ## Joining two classes -/

/-- A pin stays where it is, or goes up to the other root if that has none. -/
theorem pin_handOver_high {f : Forest} {high low : Slot} (hne : high ≠ low) (hhigh : f.Has high) :
    (f.handOver high low).pin high = (f.pin high).or (f.pin low) := by
  rw [handOver]
  split
  · rename_i hnone
    rw [pin_write_of_ne hne, pin_write hhigh, if_pos rfl, Option.isNone_iff_eq_none.mp hnone,
      Option.none_or]
  · rename_i hsome
    rw [Option.or_of_isSome (Option.isSome_iff_ne_none.mpr (by simpa using hsome))]

theorem pin_handOver_of_ne {f : Forest} {high low slot : Slot} (hhigh : slot ≠ high)
    (hlow : slot ≠ low) : (f.handOver high low).pin slot = f.pin slot := by
  rw [handOver]
  split
  · rw [pin_write_of_ne hlow, pin_write_of_ne hhigh]
  · rfl

theorem pin_hang_high {f : Forest} {high low : Slot} (hne : high ≠ low) (hhigh : f.Has high) :
    (f.hang high low).pin high = (f.pin high).or (f.pin low) := by
  rw [hang_eq, pin_handOver_high hne (by rwa [Has, size_raise, size_modify])]
  simp only [pin_raise, pin_setParent]

theorem pin_hang_of_ne {f : Forest} {high low slot : Slot} (hhigh : slot ≠ high) (hlow : slot ≠ low) :
    (f.hang high low).pin slot = f.pin slot := by
  rw [hang_eq, pin_handOver_of_ne hhigh hlow, pin_raise, pin_setParent]

/-- Two slots have come into one class, and no class has lost its pin. -/
structure Unified (f : Forest) (a b : Slot) (after : Forest) : Prop where
  rooted : after.Rooted
  together : after.root a = after.root b
  pinned : ∀ slot, (f.pin (f.root slot)).isSome → (after.pin (after.root slot)).isSome

namespace Shortened

variable {f mid after : Forest} {a b : Slot}

theorem pinned (h : f.Shortened after) {slot : Slot} (hpinned : (f.pin (f.root slot)).isSome) :
    (after.pin (after.root slot)).isSome := by
  rwa [h.root_eq, h.pin_eq]

theorem unified (h : f.Shortened after) (hsame : f.root a = f.root b) : f.Unified a b after where
  rooted := h.rooted
  together := by rw [h.root_eq, h.root_eq, hsame]
  pinned _ := h.pinned

theorem unify (h : f.Shortened mid) (h' : mid.Unified a b after) : f.Unified a b after where
  rooted := h'.rooted
  together := h'.together
  pinned slot hpinned := h'.pinned slot (h.pinned hpinned)

end Shortened

namespace Rooted

variable {f : Forest} {high low : Slot}

/-- The slots below the lower root come below the higher one. -/
theorem hang (h : f.Rooted) (hne : high ≠ low) (hhigh : f.Has high) (hlow : f.Has low)
    (htop : f.parent high = high) (hroot : f.parent low = low) :
    (f.hang high low).Rooted ∧
      ∀ slot, (f.hang high low).root slot = if f.root slot = low then high else f.root slot := by
  have hparent := parent_hang hlow high
  have hrootHigh := root_of_root htop
  have hrootLow := root_of_root hroot
  have hrooted : (f.hang high low).Rooted := by
    constructor
    · obtain ⟨depth, hdepth⟩ := h.depth
      -- The whole tree below `low` sinks deeper than `high`.
      refine ⟨fun slot => if f.root slot = low then depth slot + depth high + 1 else depth slot,
        fun slot hslot => ?_⟩
      rw [hparent] at hslot ⊢
      dsimp only
      by_cases hc : slot = low
      · rw [if_pos hc, hrootHigh, if_neg hne, hc, hrootLow, if_pos rfl]
        omega
      · rw [if_neg hc] at hslot ⊢
        have hfall := hdepth slot hslot
        rw [h.root_parent]
        split
        · omega
        · exact hfall
    · intro slot hslot
      rw [Has, size_hang] at *
      rw [hparent]
      split
      · exact hhigh
      · exact h.has_parent slot hslot
  refine ⟨hrooted, hrooted.root_eq (fun slot hslot => ?_) fun slot => ?_⟩
  · rw [hparent] at hslot
    split at hslot
    · rename_i hc
      exact absurd (hslot.trans hc) hne
    · rename_i hc
      rw [root_of_root hslot, if_neg hc]
  · rw [hparent]
    split
    · rename_i hc
      rw [hrootHigh, if_neg hne, hc, hrootLow, if_pos rfl]
    · rw [h.root_parent]

/-- Hanging one root below another unifies their classes. -/
theorem hang_unified (h : f.Rooted) {a b : Slot} (hne : high ≠ low) (hhigh : f.Has high)
    (hlow : f.Has low) (htop : f.parent high = high) (hroot : f.parent low = low)
    (hab : f.root a = high ∧ f.root b = low ∨ f.root a = low ∧ f.root b = high) :
    f.Unified a b (f.hang high low) := by
  obtain ⟨hrooted, hroots⟩ := h.hang hne hhigh hlow htop hroot
  have hpin : (f.hang high low).pin high = (f.pin high).or (f.pin low) := pin_hang_high hne hhigh
  refine ⟨hrooted, ?_, fun slot hpinned => ?_⟩
  · rw [hroots, hroots]
    rcases hab with ⟨ha, hb⟩ | ⟨ha, hb⟩
    · rw [ha, hb, if_neg hne, if_pos rfl]
    · rw [ha, hb, if_neg hne, if_pos rfl]
  · rw [hroots]
    by_cases hunder : f.root slot = low
    · rw [if_pos hunder, hpin, Option.isSome_or, ← hunder, hpinned, Bool.or_true]
    · rw [if_neg hunder]
      by_cases habove : f.root slot = high
      · rw [habove] at hpinned ⊢
        rw [hpin, Option.isSome_or, hpinned, Bool.true_or]
      · rwa [pin_hang_of_ne habove hunder]

theorem union (h : f.Rooted) {a b : Slot} (ha : f.Has a) (hb : f.Has b) :
    f.Unified a b (f.union a b) := by
  have hshort := (h.find a).trans ((h.find a).rooted.find b)
  have hrootB : (f.find a).2.root b = f.root b := (h.find a).root_eq b
  simp only [Forest.union, find_fst, hrootB]
  generalize ((f.find a).2.find b).2 = found at hshort ⊢
  by_cases hsame : f.root a = f.root b
  · rw [if_pos hsame]
    exact hshort.unified hsame
  -- The look-ups have left the two roots in place.
  have hrootA : found.root a = f.root a := hshort.root_eq a
  have hrootB : found.root b = f.root b := hshort.root_eq b
  have htopA : found.parent (f.root a) = f.root a := hrootA ▸ hshort.rooted.parent_root a
  have htopB : found.parent (f.root b) = f.root b := hrootB ▸ hshort.rooted.parent_root b
  have hhasA : found.Has (f.root a) := hshort.has (h.has_root ha)
  have hhasB : found.Has (f.root b) := hshort.has (h.has_root hb)
  rw [if_neg hsame]
  split
  · exact hshort.unify (hshort.rooted.hang_unified hsame hhasA hhasB htopA htopB
      (.inl ⟨hrootA, hrootB⟩))
  · exact hshort.unify (hshort.rooted.hang_unified (Ne.symm hsame) hhasB hhasA htopB htopA
      (.inr ⟨hrootA, hrootB⟩))

end Rooted

end Forest

end Dataflow
