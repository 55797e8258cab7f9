import Dataflow.Proofs.Groups.Refinement
import Dataflow.Proofs.Process.Life

/-!
# Where types can change

A port shows a type, and the groups know what its class has found. Of all that can become of a core,
only three things touch either: a port is declared, a port is removed, a type is settled. None of
them is done to an initialized core.
-/

namespace Dataflow

/-- The declared type of a port, and the one that it shows. -/
def Port.types (port : Port) : DataType × DataType := (port.declared, port.info.type)

namespace Core

/-- What may become of the types of a core. -/
inductive Retyped (c : Core) : Core → Prop where
  | kept {after : Core} (groups_eq : after.groups = c.groups)
      (types_eq : ∀ key, (after.port? key).map Port.types = (c.port? key).map Port.types) :
      Retyped c after
  | declared {key : PortKey} {info : PortInfo} {registry : Registry}
      (early : c.state ≠ .initialized) (new : c.port? key = none) :
      Retyped c (c.withPort key info registry)
  | removed {key : PortKey} (early : c.state ≠ .initialized) : Retyped c (c.withoutPort key)
  | settled {key : PortKey} {type : String} {port : Port} (early : c.state ≠ .initialized)
      (declared : c.port? key = some port) (dependent : port.declared.isDependent = true)
      (unsettled : port.info.type.isConcrete = false) : Retyped c (c.settle key type).2

theorem port_of_types {c after : Core} {key : PortKey} {port : Port}
    (h : (after.port? key).map Port.types = (c.port? key).map Port.types)
    (hport : after.port? key = some port) :
    ∃ before, c.port? key = some before ∧ before.declared = port.declared ∧
      before.info.type = port.info.type := by
  rw [hport, Option.map_some] at h
  obtain ⟨before, hbefore, htypes⟩ := Option.map_eq_some_iff.mp h.symm
  exact ⟨before, hbefore, congrArg Prod.fst htypes, congrArg Prod.snd htypes⟩

theorem port?_bare (config : Config) (key : PortKey) : (bare config).port? key = none := by
  rw [port?, bare, Std.ExtTreeMap.getElem?_empty]

theorem retyped_modifyPort (c : Core) (key : PortKey) {change : Port → Port}
    (h : ∀ port, (change port).types = port.types) : c.Retyped (c.modifyPort key change) :=
  .kept rfl (c.view_modifyPort h key)

theorem retyped_map (c : Core) {after : Core} {change : PortKey → Port → Port}
    (hgroups : after.groups = c.groups) (hports : after.ports = c.ports.map change)
    (h : ∀ key port, (change key port).types = port.types) : c.Retyped after := by
  refine .kept hgroups fun key => ?_
  rw [port?, hports, Std.ExtTreeMap.getElem?_map, Option.map_map]
  exact congrArg (Option.map · _) (funext (h key))

theorem retyped_advance (c : Core) (which : String → Bool) (complete : Bool) :
    c.Retyped { c.advance which with complete } := by
  refine c.retyped_map rfl rfl fun key port => ?_
  split <;> rfl

theorem retyped_rewound (c : Core) : c.Retyped c.rewound := by
  rw [rewound]
  split <;> exact c.retyped_map rfl rfl fun _ _ => rfl

theorem Touched.retyped {c after : Core} (h : c.Touched after) : c.Retyped after := by
  cases h with
  | same | keyed | leveled | completed => exact .kept rfl fun _ => rfl
  | declared early new => exact .declared early new
  | removed early => exact .removed early
  | retimed => exact c.retyped_modifyPort _ fun _ => rfl
  | settled early declared dependent unsettled => exact .settled early declared dependent unsettled
  | @sent name =>
    have h := c.retyped_advance (· = name) c.complete
    exact h

theorem Moved.retyped {resets : Prop} {c after : Core} (h : c.Moved resets after) :
    c.Retyped after := by
  cases h with
  | touched h => exact h.retyped
  | configured | initialized | retuned => exact .kept rfl fun _ => rfl
  | connected => exact c.retyped_modifyPort _ fun _ => rfl
  | faulted => exact c.retyped_advance _ _
  | rewound => exact c.retyped_rewound

/-- The types stay as they are if the core is initialized before or after. -/
theorem Retyped.types_eq {c after : Core} (h : c.Retyped after)
    (running : c.state = .initialized ∨ after.state = .initialized) (key : PortKey) :
    (after.port? key).map Port.types = (c.port? key).map Port.types := by
  cases h with
  | kept groups_eq types_eq => exact types_eq key
  | declared early | removed early => exact absurd (or_self_iff.mp running) early
  | settled early =>
    rw [settle_state] at running
    exact absurd (or_self_iff.mp running) early

theorem port?_retypeAll (c : Core) (type : DataType) (members : List PortKey) (key : PortKey) :
    (members.foldl (retype · type) c).port? key =
      if key ∈ members then
        (c.port? key).map fun port => { port with info := { port.info with type } }
      else c.port? key := by
  induction members generalizing c with
  | nil => rfl
  | cons member rest ih =>
    rw [List.foldl_cons, ih, retype, port?_modifyPort]
    by_cases hkey : key = member
    · rw [if_pos hkey, if_pos (List.mem_cons.mpr (.inl hkey)), Option.map_map]
      exact ite_self _
    · rw [if_neg hkey]
      simp only [List.mem_cons, hkey, false_or]

theorem size_visibleType (g : Groups) (declared : DataType) :
    (visibleType g declared).2.forest.size = g.forest.size := by
  rw [visibleType]
  cases declared.tag? with
  | none => rfl
  | some tag =>
    dsimp only
    rw [← g.size_pinOfTag tag]
    obtain ⟨found, after⟩ := g.pinOfTag tag
    cases found <;> rfl

/-- Slots are never taken back. -/
theorem Retyped.size_le {c after : Core} (h : c.Retyped after) :
    c.groups.forest.size ≤ after.groups.forest.size := by
  cases h with
  | kept groups_eq => exact Nat.le_of_eq (congrArg (fun g : Groups => g.forest.size) groups_eq.symm)
  | removed => exact Nat.le_refl _
  | settled => rw [settle_groups, Groups.size_settle]
  | @declared key info =>
    change _ ≤ (visibleType (c.groups.join key info.type.tag?).2 info.type).2.forest.size
    rw [size_visibleType, Groups.size_join]
    exact Nat.le_succ _

end Core

namespace Unbroken

variable {worlds : List World} {i j : Nat} {w after : World}

theorem size_le (h : Unbroken True worlds) (hij : i ≤ j) (hw : worlds[i]? = some w)
    (hafter : worlds[j]? = some after) :
    w.core.groups.forest.size ≤ after.core.groups.forest.size := by
  apply h.keeps (P := fun c => w.core.groups.forest.size ≤ c.groups.forest.size) ?_ hij hw hafter
  · exact Nat.le_refl _
  · intro c after moved hle
    exact Nat.le_trans hle moved.retyped.size_le

end Unbroken

end Dataflow
