import Dataflow.Proofs.Groups.Loops

/-!
# Forests with ranks

In a forest whose ranks rise along every path, paths lead upwards, so that every look-up ends. It
changes no rank, and a slot that it hangs directly below the root is still ranked below it. To join
two classes is to hang the root of the lower rank below the other one, and where both ranks are the
same the upper one is raised, so that the ranks rise along the new paths too.
-/

namespace Dataflow

namespace Forest

/-- Parents are in the forest, and ranks rise from slots to their parents. -/
structure Ranked (f : Forest) : Prop where
  has_parent : ∀ slot, f.Has slot → f.Has (f.parent slot)
  rank_lt : ∀ slot, f.parent slot ≠ slot → f.rank slot < f.rank (f.parent slot)

instance (f : Forest) (slot : Slot) : Decidable (f.Has slot) :=
  inferInstanceAs (Decidable (slot.index < f.size))

/-- It is enough to look at the slots of the forest. -/
theorem ranked_iff {f : Forest} :
    f.Ranked ↔ ∀ i < f.size, let slot := Slot.ofIndex i
      (f.Has slot → f.Has (f.parent slot)) ∧
        (f.parent slot ≠ slot → f.rank slot < f.rank (f.parent slot)) := by
  have hindex (slot : Slot) : Slot.ofIndex slot.index = slot := congrArg Slot.mk UInt32.ofNat_toNat
  constructor
  · exact fun h i _ => ⟨h.has_parent _, h.rank_lt _⟩
  · refine fun h => ⟨fun slot has => ?_, fun slot below => ?_⟩
    · have hslot := (h slot.index has).1
      rw [hindex] at hslot
      exact hslot has
    · have hslot := (h slot.index (Rooted.has_of_open below)).2
      rw [hindex] at hslot
      exact hslot below

instance (f : Forest) : Decidable f.Ranked := decidable_of_iff _ ranked_iff.symm

/-! ## What changes a rank -/

theorem rank_addOne {f : Forest} {high : Slot} (hhigh : f.Has high) (other : Slot) :
    (f.modify high fun node => { node with rank := node.rank + 1 }).rank other =
      if other = high then f.rank high + 1 else f.rank other := by
  simp only [rank, nodes_modify]
  by_cases h : other = high
  · subst h
    obtain ⟨node, hnode⟩ := node_of_has hhigh
    simp only [if_pos, hnode, Option.map_some, Option.elim_some]
  · rw [if_neg (fun hi => h (Slot.index_inj hi).symm), if_neg h]

/-- Only the upper root is raised, and only if the two ranks are the same. -/
theorem rank_raise {f : Forest} {high : Slot} (hhigh : f.Has high) (low slot : Slot) :
    (f.raise high low).rank slot =
      if slot = high ∧ f.rank high = f.rank low then f.rank high + 1 else f.rank slot := by
  rw [raise]
  by_cases heq : f.rank high = f.rank low
  · rw [if_pos heq, rank_addOne hhigh]
    simp only [heq, and_true]
  · rw [if_neg heq, if_neg (fun h => heq h.2)]

theorem rank_hang {f : Forest} {high : Slot} (hhigh : f.Has high) (low slot : Slot) :
    (f.hang high low).rank slot =
      if slot = high ∧ f.rank high = f.rank low then f.rank high + 1 else f.rank slot := by
  simp only [hang_eq, rank_handOver, rank_raise (has_modify.mpr hhigh), rank_setParent]

namespace Ranked

variable {f : Forest}

/-- No path is longer than there are ranks. -/
theorem rooted (h : f.Ranked) : f.Rooted where
  depth := by
    refine ⟨fun slot => UInt8.size - (f.rank slot).toNat, fun slot below => ?_⟩
    have hlt := UInt8.lt_iff_toNat_lt.mp (h.rank_lt slot below)
    have hsize := (f.rank (f.parent slot)).toNat_lt_size
    dsimp only
    omega
  has_parent := h.has_parent

theorem rank_le_root (h : f.Ranked) (slot : Slot) : f.rank slot ≤ f.rank (f.root slot) := by
  induction slot using h.rooted.induction with
  | hroot slot top => rw [root_of_root top]; exact UInt8.le_refl _
  | hparent slot below ih =>
    rw [← h.rooted.root_parent]
    exact UInt8.le_trans (UInt8.le_of_lt (h.rank_lt slot below)) ih

theorem rank_lt_root (h : f.Ranked) {slot : Slot} (below : f.parent slot ≠ slot) :
    f.rank slot < f.rank (f.root slot) := by
  rw [← h.rooted.root_parent]
  exact UInt8.lt_of_lt_of_le (h.rank_lt slot below) (h.rank_le_root _)

theorem shortcut (h : f.Ranked) {slot : Slot} (below : f.parent slot ≠ slot) :
    (f.modify slot fun node => { node with parent := f.root slot }).Ranked where
  has_parent := (h.rooted.shortcut below).rooted.has_parent
  rank_lt other hother := by
    rw [parent_setParent (Rooted.has_of_open below)] at hother ⊢
    rw [rank_setParent, rank_setParent]
    split at hother
    · rename_i heq
      rw [if_pos heq, heq]
      exact h.rank_lt_root below
    · rename_i hne
      rw [if_neg hne]
      exact h.rank_lt other hother

end Ranked

/-- The second loop changes no rank, and leaves the ranks rising. -/
theorem Hangs.ranks {top slot : Slot} {f after : Forest} (h : Hangs top f slot after)
    (ranked : f.Ranked) (htop : top = f.root slot) :
    after.Ranked ∧ ∀ other, after.rank other = f.rank other := by
  induction h with
  | done => exact ⟨ranked, fun _ => rfl⟩
  | @next f after slot has direct rest ih =>
    subst htop
    have below := below_of_ne_root direct
    have hshort := ranked.rooted.shortcut below
    obtain ⟨hafter, hrank⟩ := ih (ranked.shortcut below)
      (by rw [hshort.root_eq, ranked.rooted.root_parent])
    exact ⟨hafter, fun other => (hrank other).trans (f.rank_setParent slot _ other)⟩

/-! ## Looking up -/

/-- What comes of a look-up: both loops end, the first one at `top` and the second one with `after`.
The slots on the path hang directly below `top`, and all else is as it was. -/
structure Straightened (f : Forest) (slot top : Slot) (after : Forest) : Prop where
  climbs_iff : ∀ found, f.Climbs slot found ↔ found = top
  hangs_iff : ∀ found, Hangs top f slot found ↔ found = after
  parent_path : ∀ k, after.parent (f.parent^[k] slot) = top
  parent_aside : ∀ other, (∀ k, f.parent^[k] slot ≠ other) → after.parent other = f.parent other
  size_eq : after.size = f.size
  root_eq : ∀ other, after.root other = f.root other
  rank_eq : ∀ other, after.rank other = f.rank other
  pin_eq : ∀ other, after.pin other = f.pin other
  ranked : after.Ranked

theorem Ranked.find {f : Forest} (h : f.Ranked) {slot : Slot} (has : f.Has slot) :
    f.Straightened slot (f.find slot).1 (f.find slot).2 := by
  have hhangs := h.rooted.hangs_find has
  have hshort := h.rooted.find slot
  obtain ⟨hon, hoff⟩ := hhangs.parents h.rooted rfl
  obtain ⟨hranked, hrank⟩ := hhangs.ranks h rfl
  exact {
    climbs_iff := fun _ => h.rooted.climbs_iff has
    hangs_iff := fun _ => h.rooted.hangs_iff has
    parent_path := hon
    parent_aside := hoff
    size_eq := hshort.size_eq
    root_eq := hshort.root_eq
    rank_eq := hrank
    pin_eq := hshort.pin_eq
    ranked := hranked }

/-! ## Joining -/

/-- What comes of joining the class of the root `low` to that of the root `high`, which stays: the
slots below `low` come below `high`, and `high` takes the pin of `low` if it has none. The ranks go on
rising unless that of `high` is raised and cannot be. -/
structure Merged (f : Forest) (high low : Slot) (after : Forest) : Prop where
  size_eq : after.size = f.size
  root_eq : ∀ slot, after.root slot = if f.root slot = low then high else f.root slot
  rank_eq : ∀ slot, after.rank slot =
    if slot = high ∧ high ≠ low ∧ f.rank high = f.rank low then f.rank high + 1 else f.rank slot
  pin_high : after.pin high = (f.pin high).or (f.pin low)
  pin_eq : ∀ slot, slot ≠ high → slot ≠ low → after.pin slot = f.pin slot
  ranked : (high ≠ low → f.rank high = f.rank low → (f.rank high).toNat + 1 < UInt8.size) →
    after.Ranked

/-- Two slots are in one class just if they were before, or were in the two classes. -/
theorem Merged.root_eq_iff {f after : Forest} {high low : Slot} (h : f.Merged high low after)
    (one other : Slot) :
    after.root one = after.root other ↔ f.root one = f.root other ∨
      f.root one = high ∧ f.root other = low ∨ f.root one = low ∧ f.root other = high := by
  rw [h.root_eq, h.root_eq]
  split <;> split <;> grind

theorem Ranked.merged_self {f : Forest} (h : f.Ranked) (top : Slot) : f.Merged top top f where
  size_eq := rfl
  root_eq slot := by
    split
    · assumption
    · rfl
  rank_eq slot := (if_neg fun hslot => hslot.2.1 rfl).symm
  pin_high := by rw [Option.or_self]
  pin_eq _ _ _ := rfl
  ranked _ := h

theorem rank_lt_add_one {rank : UInt8} (h : rank.toNat + 1 < UInt8.size) : rank < rank + 1 := by
  rw [UInt8.lt_iff_toNat_lt, UInt8.toNat_add, UInt8.toNat_one, Nat.mod_eq_of_lt h]
  exact Nat.lt_succ_self _

/-- The lower root comes to be ranked below the upper one, and no slot is ranked lower than before. -/
theorem rank_le_hang {f : Forest} {high low : Slot} (hhigh : f.Has high) (hle : f.rank low ≤ f.rank high)
    (few : f.rank high = f.rank low → (f.rank high).toNat + 1 < UInt8.size) :
    f.rank low < (f.hang high low).rank high ∧ ∀ slot, f.rank slot ≤ (f.hang high low).rank slot := by
  have hrank := rank_hang hhigh low
  by_cases heq : f.rank high = f.rank low
  · have hlt := rank_lt_add_one (few heq)
    refine ⟨?_, fun slot => ?_⟩
    · rw [hrank, if_pos ⟨rfl, heq⟩, ← heq]
      exact hlt
    · rw [hrank]
      split
      · rename_i hslot
        rw [hslot.1]
        exact UInt8.le_of_lt hlt
      · exact UInt8.le_refl _
  · simp only [heq, and_false, if_false] at hrank
    refine ⟨?_, fun slot => ?_⟩
    · rw [hrank]
      exact UInt8.lt_of_le_of_ne hle (Ne.symm heq)
    · rw [hrank]
      exact UInt8.le_refl _

theorem Ranked.hang {f : Forest} (h : f.Ranked) {high low : Slot} (hne : high ≠ low)
    (hhigh : f.Has high) (hlow : f.Has low) (htop : f.parent high = high) (hroot : f.parent low = low)
    (hle : f.rank low ≤ f.rank high) : f.Merged high low (f.hang high low) := by
  obtain ⟨hrooted, hroots⟩ := h.rooted.hang hne hhigh hlow htop hroot
  have hrank := rank_hang hhigh low
  refine ⟨size_hang f high low, hroots, fun slot => ?_, pin_hang_high hne hhigh,
    fun slot => pin_hang_of_ne, fun few => ⟨hrooted.has_parent, fun slot below => ?_⟩⟩
  · rw [hrank]
    simp only [hne, ne_eq, not_false_eq_true, true_and]
  · obtain ⟨hup, hkeep⟩ := rank_le_hang hhigh hle (few hne)
    rw [parent_hang hlow] at below ⊢
    by_cases hslot : slot = low
    · rw [if_pos hslot, hslot, hrank low, if_neg fun hc => hne hc.1.symm]
      exact hup
    · rw [if_neg hslot] at below ⊢
      have hnot : slot ≠ high := fun hc => below (hc ▸ htop)
      rw [hrank slot, if_neg fun hc => hnot hc.1]
      exact UInt8.lt_of_lt_of_le (h.rank_lt slot below) (hkeep _)

/-- A look-up before the classes are joined does not show. -/
theorem Straightened.merged {f mid after : Forest} {slot top high low : Slot}
    (h : f.Straightened slot top mid) (h' : mid.Merged high low after) : f.Merged high low after where
  size_eq := h'.size_eq.trans h.size_eq
  root_eq other := by rw [h'.root_eq, h.root_eq]
  rank_eq other := by simp only [h'.rank_eq, h.rank_eq]
  pin_high := by rw [h'.pin_high, h.pin_eq, h.pin_eq]
  pin_eq other hhigh hlow := (h'.pin_eq other hhigh hlow).trans (h.pin_eq other)
  ranked few := h'.ranked (by simpa only [h.rank_eq] using few)

/-- The root of the higher rank stays, and that of the first slot if the ranks are the same. -/
theorem Ranked.union {f : Forest} (h : f.Ranked) {a b : Slot} (ha : f.Has a) (hb : f.Has b) :
    ∃ high low, (high = f.root a ∧ low = f.root b ∨ high = f.root b ∧ low = f.root a) ∧
      f.rank low ≤ f.rank high ∧ f.Merged high low (f.union a b) := by
  have hfind := h.find ha
  have hhas : (f.find a).2.Has b := by rwa [Has, hfind.size_eq]
  have hfind' := hfind.ranked.find hhas
  have hrootB : (f.find a).2.root b = f.root b := hfind.root_eq b
  have hmerged {high low : Slot} {after : Forest}
      (hafter : ((f.find a).2.find b).2.Merged high low after) : f.Merged high low after :=
    hfind.merged (hfind'.merged hafter)
  have hshort := (h.rooted.find a).trans (hfind.ranked.rooted.find b)
  have hrank (slot : Slot) : ((f.find a).2.find b).2.rank slot = f.rank slot :=
    (hfind'.rank_eq slot).trans (hfind.rank_eq slot)
  have hranked := hfind'.ranked
  simp only [Forest.union, find_fst, hrootB]
  generalize ((f.find a).2.find b).2 = found at hmerged hshort hrank hranked ⊢
  by_cases hsame : f.root a = f.root b
  · rw [if_pos hsame, hsame]
    exact ⟨f.root b, f.root b, .inl ⟨rfl, rfl⟩, UInt8.le_refl _, hmerged (hranked.merged_self _)⟩
  -- The look-ups have left the two roots in place.
  have htop (slot : Slot) : found.parent (f.root slot) = f.root slot := by
    rw [← hshort.root_eq]
    exact hshort.rooted.parent_root slot
  have hhasA : found.Has (f.root a) := hshort.has (h.rooted.has_root ha)
  have hhasB : found.Has (f.root b) := hshort.has (h.rooted.has_root hb)
  rw [if_neg hsame, hrank, hrank]
  split
  · rename_i hle
    refine ⟨f.root a, f.root b, .inl ⟨rfl, rfl⟩, hle, hmerged ?_⟩
    exact hranked.hang hsame hhasA hhasB (htop a) (htop b) (by rwa [hrank, hrank])
  · rename_i hnot
    have hle : f.rank (f.root a) ≤ f.rank (f.root b) := UInt8.le_of_lt (UInt8.not_le.mp hnot)
    refine ⟨f.root b, f.root a, .inr ⟨rfl, rfl⟩, hle, hmerged ?_⟩
    exact hranked.hang (Ne.symm hsame) hhasB hhasA (htop b) (htop a) (by rwa [hrank, hrank])

/-- Looking up and joining in a forest with rising ranks. A look-up of a slot of the forest ends in both
its loops and gives the root. Then the slots on the way hang directly below the root, no other slot has
moved, every slot has the root, the rank and the pin that it had, and the ranks rise as before. Joining
two slots of the forest makes one class of their two, of which one root stays and keeps its pin, or has
that of the other if it had none; all other classes are as they were, and the ranks rise again unless
the root that stays cannot be ranked higher. -/
theorem ranked_find_union {f : Forest} (h : f.Ranked) :
    (∀ slot, f.Has slot → f.Straightened slot (f.find slot).1 (f.find slot).2) ∧
      ∀ a b, f.Has a → f.Has b →
        ∃ high low, (high = f.root a ∧ low = f.root b ∨ high = f.root b ∧ low = f.root a) ∧
          f.rank low ≤ f.rank high ∧ f.Merged high low (f.union a b) ∧
          (f.union a b).root a = high ∧
          ∀ one other, (f.union a b).root one = (f.union a b).root other ↔
            f.root one = f.root other ∨ f.root one = f.root a ∧ f.root other = f.root b ∨
              f.root one = f.root b ∧ f.root other = f.root a := by
  refine ⟨fun slot has => h.find has, fun a b ha hb => ?_⟩
  obtain ⟨high, low, hroots, hle, hmerged⟩ := h.union ha hb
  refine ⟨high, low, hroots, hle, hmerged, ?_, fun one other => ?_⟩
  · rw [hmerged.root_eq]
    rcases hroots with ⟨rfl, rfl⟩ | ⟨rfl, rfl⟩
    · split <;> rfl
    · exact if_pos rfl
  · rw [hmerged.root_eq_iff]
    rcases hroots with ⟨rfl, rfl⟩ | ⟨rfl, rfl⟩
    · rfl
    · exact or_congr_right or_comm

/-- A forest with two tall classes. No sequence of joins leads to its ranks, and only the class of the
fifth slot has a pin. -/
def tall : Forest :=
  ⟨#[⟨⟨1⟩, 0, none⟩, ⟨⟨2⟩, 3, none⟩, ⟨⟨3⟩, 4, none⟩, ⟨⟨3⟩, 9, none⟩, ⟨⟨5⟩, 0, none⟩,
    ⟨⟨5⟩, 9, some "int"⟩]⟩

/-- The path from the first slot is straight after a look-up, and the joined class has the pin. -/
theorem ranked_find_union_tall :
    tall.Ranked ∧ tall.Has ⟨0⟩ ∧ tall.Has ⟨4⟩ ∧ tall.parent^[2] ⟨0⟩ = ⟨2⟩ ∧
      (tall.find ⟨0⟩).1 = ⟨3⟩ ∧ (∀ k, (tall.find ⟨0⟩).2.parent (tall.parent^[k] ⟨0⟩) = ⟨3⟩) ∧
      (tall.union ⟨0⟩ ⟨4⟩).Ranked ∧ (tall.union ⟨0⟩ ⟨4⟩).root ⟨0⟩ = (tall.union ⟨0⟩ ⟨4⟩).root ⟨4⟩ ∧
      (tall.union ⟨0⟩ ⟨4⟩).pin ((tall.union ⟨0⟩ ⟨4⟩).root ⟨0⟩) = some "int" := by
  have ranked : tall.Ranked := by decide
  obtain ⟨hfind, hunion⟩ := ranked_find_union ranked
  obtain ⟨high, low, hroots, -, hmerged, hhigh, hclasses⟩ :=
    hunion ⟨0⟩ ⟨4⟩ (by decide) (by decide)
  have hrootA : tall.root ⟨0⟩ = ⟨3⟩ := by decide
  have hrootB : tall.root ⟨4⟩ = ⟨5⟩ := by decide
  refine ⟨ranked, by decide, by decide, by decide, hrootA, (hfind ⟨0⟩ (by decide)).parent_path,
    hmerged.ranked fun _ _ => ?_, (hclasses _ _).mpr (.inr (.inl ⟨rfl, rfl⟩)), ?_⟩
  · rcases hroots with ⟨rfl, -⟩ | ⟨rfl, -⟩
    · rw [hrootA]
      decide
    · rw [hrootB]
      decide
  · rw [hhigh, hmerged.pin_high]
    rcases hroots with ⟨rfl, rfl⟩ | ⟨rfl, rfl⟩ <;> rw [hrootA, hrootB] <;> decide

end Forest

end Dataflow
