import Mathlib.Logic.Function.Iterate
import Dataflow.Proofs.Groups.Paths

/-!
# The loops of a look-up

A look-up climbs from a slot to its root, and then goes the same way again and hangs every slot on it
directly below the root. The two loops are told here as they run, with no bound on their steps, and
every slot that they read is in the forest. They end if paths lead upwards, and a bound on the steps
by the size of the forest never cuts them short.
-/

namespace Dataflow

namespace Forest

/-- The first loop, from a slot: it reads the parent, and goes on there unless the slot is a root. -/
inductive Climbs (f : Forest) : Slot → Slot → Prop where
  | root {slot : Slot} (has : f.Has slot) (top : f.parent slot = slot) : Climbs f slot slot
  | parent {slot top : Slot} (has : f.Has slot) (below : f.parent slot ≠ slot)
      (rest : Climbs f (f.parent slot) top) : Climbs f slot top

/-- The second loop, from a slot: it hangs the slot below `top` and goes on at the old parent, unless
the slot hangs there already. -/
inductive Hangs (top : Slot) : Forest → Slot → Forest → Prop where
  | done {f : Forest} {slot : Slot} (has : f.Has slot) (direct : f.parent slot = top) :
      Hangs top f slot f
  | next {f after : Forest} {slot : Slot} (has : f.Has slot) (below : f.parent slot ≠ top)
      (rest : Hangs top (f.modify slot fun node => { node with parent := top }) (f.parent slot) after) :
      Hangs top f slot after

theorem Climbs.root_eq {f : Forest} {slot top : Slot} (h : f.Climbs slot top) (rooted : f.Rooted) :
    f.root slot = top := by
  induction h with
  | root has top => exact root_of_root top
  | parent has below rest ih => rw [← rooted.root_parent, ih]

theorem Hangs.unique {top slot : Slot} {f after after' : Forest} (h : Hangs top f slot after)
    (h' : Hangs top f slot after') : after = after' := by
  induction h with
  | done has direct =>
    cases h' with
    | done => rfl
    | next _ below => exact absurd direct below
  | next has below rest ih =>
    cases h' with
    | done _ direct => exact absurd direct below
    | next _ _ rest' => exact ih rest'

/-- A slot that does not hang directly below its root is no root. -/
theorem below_of_ne_root {f : Forest} {slot : Slot} (h : f.parent slot ≠ f.root slot) :
    f.parent slot ≠ slot :=
  fun top => h (top.trans (root_of_root top).symm)

namespace Rooted

variable {f : Forest}

/-- The first loop ends at the root. -/
theorem climbs (h : f.Rooted) {slot : Slot} (has : f.Has slot) : f.Climbs slot (f.root slot) := by
  induction slot using h.induction with
  | hroot slot top =>
    rw [root_of_root top]
    exact .root has top
  | hparent slot below ih =>
    rw [← h.root_parent]
    exact .parent has below (ih (h.has_parent slot has))

theorem climbs_iff (h : f.Rooted) {slot top : Slot} (has : f.Has slot) :
    f.Climbs slot top ↔ top = f.root slot := by
  constructor
  · exact fun hclimbs => (hclimbs.root_eq h).symm
  · rintro rfl
    exact h.climbs has

/-- What reaches the root within some steps does so when one slot is hung directly below it. -/
theorem reaches_shortcut (h : f.Rooted) {slot : Slot} (below : f.parent slot ≠ slot) {steps : Nat}
    {other : Slot} (hreach : f.parent (f.climb steps other) = f.root other) :
    let after := f.modify slot fun node => { node with parent := f.root slot }
    after.parent (after.climb steps other) = f.root other := by
  intro after
  have hparent : ∀ other, after.parent other = if other = slot then f.root slot else f.parent other :=
    parent_setParent (has_of_open below) (f.root slot)
  induction steps generalizing other with
  | zero =>
    rw [climb, hparent]
    split
    · rename_i hother
      rw [hother]
    · exact hreach
  | succ steps ih =>
    rw [climb_parent, ← h.root_parent] at hreach
    rw [climb_parent, hparent other]
    split
    · rename_i hother
      have hshort := h.shortcut below
      have htop : after.parent (f.root slot) = f.root slot :=
        hshort.root_eq slot ▸ hshort.rooted.parent_root slot
      rw [climb_of_root htop, htop, hother]
    · rw [← h.root_parent other]
      exact ih hreach

/-- The second loop ends too, and no bound on its steps cuts it short. -/
theorem hangs_shorten (h : f.Rooted) {slot : Slot} (has : f.Has slot) {steps : Nat}
    (hreach : f.parent (f.climb steps slot) = f.root slot) :
    Hangs (f.root slot) f slot (f.shorten (f.root slot) steps slot) := by
  induction steps generalizing f slot with
  | zero => exact .done has hreach
  | succ steps ih =>
    rw [Forest.shorten]
    by_cases direct : f.parent slot = f.root slot
    · rw [if_pos direct]
      exact .done has direct
    · have below := below_of_ne_root direct
      have hshort := h.shortcut below
      have htop := (hshort.root_eq (f.parent slot)).trans (h.root_parent slot)
      rw [climb_parent, ← h.root_parent] at hreach
      have hrest := ih hshort.rooted (hshort.has (h.has_parent slot has)) (by
        rw [h.reaches_shortcut below hreach, hshort.root_eq])
      rw [htop] at hrest
      rw [if_neg direct]
      exact .next has direct hrest

theorem hangs_find (h : f.Rooted) {slot : Slot} (has : f.Has slot) :
    Hangs (f.root slot) f slot (f.find slot).2 :=
  h.hangs_shorten has (h.parent_root slot)

theorem hangs_iff (h : f.Rooted) {slot : Slot} (has : f.Has slot) {after : Forest} :
    Hangs (f.root slot) f slot after ↔ after = (f.find slot).2 := by
  constructor
  · exact fun hhangs => hhangs.unique (h.hangs_find has)
  · rintro rfl
    exact h.hangs_find has

/-! ## The path of a look-up -/

/-- A path never comes back to where it has been. -/
theorem iterate_ne (h : f.Rooted) {slot : Slot} (below : f.parent slot ≠ slot) (k : Nat) :
    f.parent^[k] (f.parent slot) ≠ slot := by
  obtain ⟨depth, hdepth⟩ := h.depth
  have hle : depth (f.parent^[k] (f.parent slot)) ≤ depth (f.parent slot) := by
    induction k with
    | zero => exact Nat.le_refl _
    | succ k ih =>
      rw [Function.iterate_succ_apply']
      by_cases top : f.parent (f.parent^[k] (f.parent slot)) = f.parent^[k] (f.parent slot)
      · rw [top]
        exact ih
      · exact (Nat.le_of_lt (hdepth _ top)).trans ih
  intro heq
  rw [heq] at hle
  exact Nat.not_lt_of_le hle (hdepth slot below)

theorem iterate_shortcut (h : f.Rooted) {slot : Slot} (below : f.parent slot ≠ slot) (k : Nat) :
    (f.modify slot fun node => { node with parent := f.root slot }).parent^[k] (f.parent slot) =
      f.parent^[k] (f.parent slot) := by
  induction k with
  | zero => rfl
  | succ k ih =>
    rw [Function.iterate_succ_apply', Function.iterate_succ_apply', ih,
      parent_setParent (has_of_open below), if_neg (h.iterate_ne below k)]

end Rooted

/-- Behind the second loop all slots on the path hang directly below the root, and no other slot has
moved. -/
theorem Hangs.parents {top slot : Slot} {f after : Forest} (h : Hangs top f slot after)
    (rooted : f.Rooted) (htop : top = f.root slot) :
    (∀ k, after.parent (f.parent^[k] slot) = top) ∧
      ∀ other, (∀ k, f.parent^[k] slot ≠ other) → after.parent other = f.parent other := by
  induction h with
  | @done f slot has direct =>
    refine ⟨fun k => ?_, fun _ _ => rfl⟩
    have hself : f.parent top = top := htop ▸ rooted.parent_root slot
    cases k with
    | zero => exact direct
    | succ k => rw [Function.iterate_succ_apply, direct, Function.iterate_fixed hself, hself]
  | @next f after slot has direct rest ih =>
    subst htop
    have below := below_of_ne_root direct
    have hshort := rooted.shortcut below
    have hparent := parent_setParent has (f.root slot)
    have hpath := rooted.iterate_shortcut below
    obtain ⟨hon, hoff⟩ := ih hshort.rooted (by rw [hshort.root_eq, rooted.root_parent])
    simp only [hpath] at hon hoff
    refine ⟨fun k => ?_, fun other hother => ?_⟩
    · cases k with
      | zero =>
        change after.parent slot = _
        rw [hoff slot (rooted.iterate_ne below), hparent, if_pos rfl]
      | succ k => exact hon k
    · have hne : other ≠ slot := fun heq => hother 0 heq.symm
      rw [hoff other fun k => hother (k + 1), hparent, if_neg hne]

end Forest

end Dataflow
