import Dataflow.Hook
import Dataflow.Proofs.Core.Proposal
import Dataflow.Proofs.Core.Sending
import Dataflow.Proofs.Registry.History

/-!
# What a request does to the core

A hook changes the core by its requests alone, and a request that changes anything does one of a few
things. `Touched` lists them, each with what must hold for it to be done, so that what is said of
all requests is shown by looking at these few.
-/

namespace Dataflow

namespace Core

/-- The core with one more port, and with the registry that comes of it. -/
def withPort (c : Core) (key : PortKey) (info : PortInfo) (registry : Registry) : Core :=
  let shown := visibleType (c.groups.join key info.type.tag?).2 info.type
  { c with
    registry
    groups := shown.2
    ports := c.ports.insert key ⟨info.type, { info with type := shown.1 }, [], .first⟩ }

/-- The core without a port. -/
def withoutPort (c : Core) (key : PortKey) : Core :=
  { c with ports := c.ports.erase key, groups := c.groups.leave key }

/-- A port at another frequency. -/
def retime (c : Core) (key : PortKey) (frequency : Frequency) : Core :=
  c.modifyPort key fun port => { port with info := { port.info with frequency } }

theorem port?_withPort (c : Core) (key : PortKey) (info : PortInfo) (registry : Registry)
    (other : PortKey) :
    (c.withPort key info registry).port? other =
      if other = key then
        some ⟨info.type,
          { info with type := (visibleType (c.groups.join key info.type.tag?).2 info.type).1 },
          [], .first⟩
      else c.port? other :=
  Lookup.getElem?_insert c.ports key _ other

theorem port?_withoutPort (c : Core) (key other : PortKey) :
    (c.withoutPort key).port? other = if other = key then none else c.port? other :=
  Lookup.getElem?_erase c.ports key other

theorem port_of_withoutPort {c : Core} {key other : PortKey} {port : Port}
    (h : (c.withoutPort key).port? other = some port) : other ≠ key ∧ c.port? other = some port := by
  rw [port?_withoutPort] at h
  by_cases hother : other = key
  · rw [if_pos hother] at h
    exact absurd h.symm (Option.some_ne_none port)
  · rw [if_neg hother] at h
    exact ⟨hother, h⟩

/-- What a request may do to the core. -/
inductive Touched (c : Core) : Core → Prop where
  | same : Touched c c
  | declared {key : PortKey} {info : PortInfo} {registry : Registry}
      (early : c.state ≠ .initialized) (new : c.port? key = none)
      (fitting : flagClash? key.direction info.flags = none)
      (static : declareStatic c.registry key info.flags = .ok registry) :
      Touched c (c.withPort key info registry)
  | removed {key : PortKey} {port : Port} (early : c.state ≠ .initialized)
      (declared : c.port? key = some port) (free : key ≠ .output heartbeat) :
      Touched c (c.withoutPort key)
  | retimed {key : PortKey} {frequency : Frequency} (early : c.state ≠ .initialized) :
      Touched c (c.retime key frequency)
  | keyed {key : String} {info : KeyInfo} {registry : Registry}
      (new : c.registry.declare key info = .ok registry) : Touched c { c with registry }
  | leveled {level : CheckLevel} : Touched c (c.setLevel level)
  | completed : Touched c c.markComplete
  | settled {key : PortKey} {type : String} {port : Port} (early : c.state ≠ .initialized)
      (declared : c.port? key = some port) (dependent : port.declared.isDependent = true)
      (unsettled : port.info.type.isConcrete = false) : Touched c (c.settle key type).2
  | sent {name : String} : Touched c (c.advance (· = name))

theorem contains_eq (c : Core) (key : PortKey) : c.ports.contains key = (c.port? key).isSome :=
  Std.ExtTreeMap.contains_eq_isSome_getElem?

theorem declareStatic_ok (r : Registry) (key : PortKey) (flags : Flags) :
    ∃ registry, declareStatic r key flags = .ok registry := by
  rw [declareStatic]
  split
  · rename_i h
    -- The key is declared only if it is not declared yet, and then nothing can fail.
    rw [Registry.declare, h.2.2]
    exact ⟨_, rfl⟩
  · exact ⟨r, rfl⟩

/-- A declaration that nothing speaks against is made. -/
theorem declare_eq {c : Core} {key : PortKey} {info : PortInfo} {registry : Registry}
    (early : c.state ≠ .initialized) (new : c.port? key = none)
    (fitting : flagClash? key.direction info.flags = none)
    (static : declareStatic c.registry key info.flags = .ok registry) :
    c.declare key info = (.ok (), c.withPort key info registry) := by
  rw [declare, if_neg early, contains_eq, new]
  simp only [Option.isSome_none, Bool.false_eq_true, if_false, fitting, static]
  rfl

/-- What may come of a declaration. -/
inductive Declared (c : Core) (key : PortKey) (info : PortInfo) : Attempt Core Unit → Prop where
  | late (late : c.state = .initialized) :
      Declared c key info (.error (.declaredLate c.name key.name), c)
  | known {port : Port} (known : c.port? key = some port) :
      Declared c key info (.error (.duplicatePort c.name key), c)
  | unfit {clash : FlagClash} (unfit : flagClash? key.direction info.flags = some clash) :
      Declared c key info (.error (.flagMismatch c.name key.name clash.message), c)
  | made {registry : Registry} (early : c.state ≠ .initialized) (new : c.port? key = none)
      (fitting : flagClash? key.direction info.flags = none)
      (static : declareStatic c.registry key info.flags = .ok registry) :
      Declared c key info (.ok (), c.withPort key info registry)

theorem declared (c : Core) (key : PortKey) (info : PortInfo) :
    c.Declared key info (c.declare key info) := by
  by_cases early : c.state = .initialized
  · rw [declare, if_pos early]
    exact .late early
  · cases new : c.port? key with
    | some port =>
      rw [declare, if_neg early, contains_eq, new]
      exact .known new
    | none =>
      cases fitting : flagClash? key.direction info.flags with
      | some clash =>
        rw [declare, if_neg early, contains_eq, new, fitting]
        exact .unfit fitting
      | none =>
        obtain ⟨registry, static⟩ := declareStatic_ok c.registry key info.flags
        rw [declare_eq early new fitting static]
        exact .made early new fitting static

theorem declare_touched (c : Core) (key : PortKey) (info : PortInfo) :
    c.Touched (c.declare key info).2 := by
  have hdeclared := c.declared key info
  generalize c.declare key info = attempt at hdeclared ⊢
  cases hdeclared with
  | late | known | unfit => exact .same
  | made early new fitting static => exact .declared early new fitting static

/-- An edge is refused, or it is bound to a port that is declared. -/
theorem connect_cases (c : Core) (key : PortKey) (edge? : Option EdgeId) :
    (∃ e, c.connect key edge? = (.error e, c)) ∨
      ∃ edge port, edge? = some edge ∧ c.state = .configured ∧ c.port? key = some port ∧
        (key.direction = .input → port.edges = []) ∧
        c.connect key edge? =
          (.ok (), c.modifyPort key fun port => { port with edges := port.edges ++ [edge] }) := by
  unfold connect
  cases edge? with
  | none => exact .inl ⟨_, rfl⟩
  | some edge =>
    cases c.state with
    | initialized | created => exact .inl ⟨_, rfl⟩
    | configured =>
      dsimp only
      cases c.port? key with
      | none => exact .inl ⟨_, rfl⟩
      | some port =>
        dsimp only
        split
        · exact .inl ⟨_, rfl⟩
        · rename_i free
          exact .inr ⟨edge, port, rfl, rfl, rfl,
            fun input => Decidable.not_not.mp fun h => free ⟨input, h⟩, rfl⟩

/-- A removal that nothing speaks against is made. -/
theorem remove_eq {c : Core} {key : PortKey} (free : key ≠ .output heartbeat)
    (early : c.state ≠ .initialized) (declared : (c.port? key).isSome = true) :
    c.remove key = (.ok (), c.withoutPort key) := by
  rw [remove, if_neg free, if_neg early, contains_eq, if_pos declared]
  rfl

/-- What may come of a removal. -/
inductive Removed (c : Core) (key : PortKey) : Attempt Core Unit → Prop where
  | reserved (reserved : key = .output heartbeat) :
      Removed c key (.error (.reservedPort c.name key.name), c)
  | late (late : c.state = .initialized) : Removed c key (.error (.declaredLate c.name key.name), c)
  | absent (absent : c.port? key = none) : Removed c key (.error (c.noPort key), c)
  | made {port : Port} (free : key ≠ .output heartbeat) (early : c.state ≠ .initialized)
      (declared : c.port? key = some port) : Removed c key (.ok (), c.withoutPort key)

theorem removed (c : Core) (key : PortKey) : c.Removed key (c.remove key) := by
  by_cases reserved : key = .output heartbeat
  · rw [remove, if_pos reserved]
    exact .reserved reserved
  · by_cases early : c.state = .initialized
    · rw [remove, if_neg reserved, if_pos early]
      exact .late early
    · cases declared : c.port? key with
      | none =>
        rw [remove, if_neg reserved, if_neg early, contains_eq, declared]
        exact .absent declared
      | some port =>
        rw [remove_eq reserved early (declared ▸ rfl)]
        exact .made reserved early declared

/-- What may come of another frequency. -/
inductive Retimed (c : Core) (key : PortKey) (frequency : Frequency) : Attempt Core Unit → Prop where
  | late (late : c.state = .initialized) :
      Retimed c key frequency (.error (.declaredLate c.name key.name), c)
  | absent (absent : c.port? key = none) : Retimed c key frequency (.error (c.noPort key), c)
  | made {port : Port} (early : c.state ≠ .initialized) (declared : c.port? key = some port) :
      Retimed c key frequency (.ok (), c.retime key frequency)

theorem retimed (c : Core) (key : PortKey) (frequency : Frequency) :
    c.Retimed key frequency (c.setFrequency key frequency) := by
  rw [setFrequency]
  by_cases early : c.state = .initialized
  · rw [if_pos early]
    exact .late early
  · rw [if_neg early, contains_eq]
    cases declared : c.port? key with
    | none => exact .absent declared
    | some port => exact .made early declared

theorem remove_touched (c : Core) (key : PortKey) : c.Touched (c.remove key).2 := by
  have hremoved := c.removed key
  generalize c.remove key = attempt at hremoved ⊢
  cases hremoved with
  | reserved | late | absent => exact .same
  | made free early declared => exact .removed early declared free

theorem setFrequency_touched (c : Core) (key : PortKey) (frequency : Frequency) :
    c.Touched (c.setFrequency key frequency).2 := by
  have hretimed := c.retimed key frequency
  generalize c.setFrequency key frequency = attempt at hretimed ⊢
  cases hretimed with
  | late | absent => exact .same
  | made early declared => exact .retimed early

theorem declareKey_touched (c : Core) (key : String) (info : KeyInfo) :
    c.Touched (c.declareKey key info).2 := by
  rw [declareKey]
  cases hnew : c.registry.declare key info with
  | error e => exact .same
  | ok registry => exact .keyed hnew

theorem resolve_touched (c : Core) (key : PortKey) (proposed : DataType) :
    c.Touched (c.resolve key proposed).2 := by
  have hresolved := c.resolved key proposed
  generalize c.resolve key proposed = attempt at hresolved ⊢
  cases hresolved with
  | refused | answered => exact .same
  | settled check hport _ opened =>
    exact .settled (port_of_check check).1 hport opened.1 opened.2

/-! ## What settling leaves alone -/

theorem retypeAll_rest (c : Core) (type : DataType) (members : List PortKey) :
    { members.foldl (retype · type) c with ports := c.ports } = c := by
  induction members generalizing c with
  | nil => rfl
  | cons key rest ih =>
    exact congrArg (fun after : Core => { after with ports := c.ports }) (ih (c.retype type key))

/-- What a settlement leaves behind, by what the groups make of it. -/
theorem settle_core (c : Core) (key : PortKey) (type : String) :
    (c.settle key type).2 =
      match c.groups.settle key type with
      | (.settled members, groups) => members.foldl (retype · (.concrete type)) { c with groups }
      | (.unchanged, groups) => { c with groups }.retype (.concrete type) key
      | (.conflict _, groups) => { c with groups } := by
  rw [settle]
  obtain ⟨settlement, groups⟩ := c.groups.settle key type
  cases settlement <;> rfl

/-- Nothing changes but the groups and the ports. -/
theorem settle_rest (c : Core) (key : PortKey) (type : String) :
    { (c.settle key type).2 with ports := c.ports, groups := c.groups } = c := by
  rw [settle_core]
  obtain ⟨settlement, groups⟩ := c.groups.settle key type
  cases settlement with
  | settled members =>
    exact congrArg (fun after : Core => { after with groups := c.groups })
      (retypeAll_rest { c with groups } (.concrete type) members)
  | unchanged => rfl
  | conflict found => rfl

theorem settle_state (c : Core) (key : PortKey) (type : String) :
    (c.settle key type).2.state = c.state := by
  have h := congrArg Core.state (c.settle_rest key type)
  exact h

theorem settle_groups (c : Core) (key : PortKey) (type : String) :
    (c.settle key type).2.groups = (c.groups.settle key type).2 := by
  rw [settle_core]
  obtain ⟨settlement, groups⟩ := c.groups.settle key type
  cases settlement with
  | settled members =>
    exact congrArg Core.groups (retypeAll_rest { c with groups } (.concrete type) members)
  | unchanged => rfl
  | conflict found => rfl

/-! ## What becomes of the registry -/

theorem declareKey_registry (c : Core) (key : String) (info : KeyInfo) :
    (c.declareKey key info).2.registry = c.registry.enter (.declare key info) := by
  rw [declareKey, Registry.enter]
  cases c.registry.declare key info <;> rfl

theorem remove_registry (c : Core) (key : PortKey) : (c.remove key).2.registry = c.registry := by
  have hremoved := c.removed key
  generalize c.remove key = attempt at hremoved ⊢
  cases hremoved <;> rfl

theorem setFrequency_registry (c : Core) (key : PortKey) (frequency : Frequency) :
    (c.setFrequency key frequency).2.registry = c.registry := by
  have hretimed := c.retimed key frequency
  generalize c.setFrequency key frequency = attempt at hretimed ⊢
  cases hretimed <;> rfl

theorem settle_registry (c : Core) (key : PortKey) (type : String) :
    (c.settle key type).2.registry = c.registry := by
  have h := congrArg Core.registry (c.settle_rest key type)
  exact h

theorem resolve_registry (c : Core) (key : PortKey) (proposed : DataType) :
    (c.resolve key proposed).2.registry = c.registry := by
  have hresolved := c.resolved key proposed
  generalize c.resolve key proposed = attempt at hresolved ⊢
  cases hresolved with
  | refused | answered => rfl
  | settled => exact c.settle_registry key _

theorem connect_registry (c : Core) (key : PortKey) (edge? : Option EdgeId) :
    (c.connect key edge?).2.registry = c.registry := by
  rcases c.connect_cases key edge? with ⟨e, h⟩ | ⟨edge, port, -, -, -, -, h⟩
  · rw [h]
  · rw [h]
    rfl

/-! ## Requests -/

/-- A hook goes through no state but the one in which it starts. -/
theorem Touched.state_eq {c after : Core} (h : c.Touched after) : after.state = c.state := by
  cases h with
  | settled => exact c.settle_state _ _
  | same | declared | removed | retimed | keyed | leveled | completed | sent => rfl

end Core

namespace World

theorem grab_core (w : World) (port : String) : (w.grab port).2.core = w.core := by
  rw [grab]
  split
  · rfl
  · split <;> rfl

theorem grabAs_core (w : World) (port : String) (kind : Payload.Kind) :
    (w.grabAs port kind).2.core = w.core := by
  have h := w.grab_core port
  rw [grabAs]
  generalize w.grab port = taken at h
  obtain ⟨result, after⟩ := taken
  cases result with
  | error e => exact h
  | ok token? =>
    cases token? with
    | none => exact h
    | some token =>
      dsimp only
      cases token.datum.get? kind <;> exact h

theorem grabInput_core (w : World) (port : String) (kind : Scalar.Kind) :
    (w.grabInput port kind).2.core = w.core := by
  rw [grabInput]
  cases w.core.port? (.input port) with
  | none => rfl
  | some p =>
    dsimp only
    split
    · rfl
    · exact w.grabAs_core port (.scalar kind)

/-- A request does one of the few things to the core. -/
theorem perform_touched (w : World) (r : Request) : w.core.Touched (w.perform r).2.core := by
  cases r with
  | grab port =>
    change w.core.Touched (w.grab port).2.core
    rw [grab_core]
    exact .same
  | grabAs port kind =>
    change w.core.Touched (w.grabAs port kind).2.core
    rw [grabAs_core]
    exact .same
  | grabInput port kind =>
    change w.core.Touched (w.grabInput port kind).2.core
    rw [grabInput_core]
    exact .same
  | declare key info => exact w.core.declare_touched key info
  | remove key => exact w.core.remove_touched key
  | setFrequency key frequency => exact w.core.setFrequency_touched key frequency
  | declareKey key info => exact w.core.declareKey_touched key info
  | setLevel level => exact .leveled
  | markComplete => exact .completed
  | resolve key proposed => exact w.core.resolve_touched key proposed
  | push port datum =>
    change w.core.Touched (w.push port datum).2.core
    rw [push_core]
    exact .sent
  | name | typeName | state | isComplete | level | portNames _ | config | debug | info _
  | hasEdge _ | countEdges _ | nextStamp _ | value _ _ | peek _ _ => exact .same

end World

/-- What every request keeps, a hook keeps. -/
theorem Hook.run_keeps {α : Type} {P : Core → Prop} (keeps : ∀ c after, c.Touched after → P c → P after)
    (h : Hook α) (w : World) (hw : P w.core) : P (h.run w).2.core := by
  induction h generalizing w with
  | done result => exact hw
  | ask request next ih => exact ih _ _ (keeps _ _ (w.perform_touched request) hw)

/-! ## After the initialization -/

namespace Core

/-- Whether two cores differ at most in what may change after the initialization: the stamps, the
keys, the level and the mark of completion. -/
structure Frozen (c after : Core) : Prop where
  state_eq : after.state = c.state
  groups_eq : after.groups = c.groups
  port_eq : ∀ key, (after.port? key).map (fun port => { port with stamp := .first }) =
    (c.port? key).map fun port => { port with stamp := .first }

theorem Frozen.refl (c : Core) : c.Frozen c := ⟨rfl, rfl, fun _ => rfl⟩

theorem Frozen.symm {c after : Core} (h : c.Frozen after) : after.Frozen c :=
  ⟨h.state_eq.symm, h.groups_eq.symm, fun key => (h.port_eq key).symm⟩

theorem Frozen.trans {c mid after : Core} (h : c.Frozen mid) (h' : mid.Frozen after) :
    c.Frozen after where
  state_eq := h'.state_eq.trans h.state_eq
  groups_eq := h'.groups_eq.trans h.groups_eq
  port_eq key := (h'.port_eq key).trans (h.port_eq key)

theorem frozen_advance (c : Core) (which : String → Bool) : c.Frozen (c.advance which) where
  state_eq := rfl
  groups_eq := rfl
  port_eq := c.view_advance (fun _ _ => rfl) which

/-- An initialized core refuses whatever would move more than that. -/
theorem Touched.frozen {c after : Core} (h : c.Touched after) (running : c.state = .initialized) :
    c.Frozen after := by
  cases h with
  -- These are done early or not at all.
  | declared early | removed early | retimed early | settled early => exact absurd running early
  | same => exact .refl c
  | keyed | leveled | completed => exact ⟨rfl, rfl, fun _ => rfl⟩
  | sent => exact c.frozen_advance _

/-- What a stamp does not show of a port is the same after the freeze. -/
theorem Frozen.map_eq {β : Type} {c after : Core} (h : c.Frozen after) {view : Port → β}
    (hview : ∀ port stamp, view { port with stamp } = view port) (key : PortKey) :
    (after.port? key).map view = (c.port? key).map view := by
  have hport := congrArg (Option.map view) (h.port_eq key)
  simp only [Option.map_map, Function.comp_def, hview] at hport
  exact hport

theorem Frozen.edges_eq {c after : Core} (h : c.Frozen after) (key : PortKey) :
    (after.port? key).map Port.edges = (c.port? key).map Port.edges :=
  h.map_eq (fun _ _ => rfl) key

end Core

theorem Hook.run_frozen {α : Type} (h : Hook α) (w : World) (running : w.core.state = .initialized) :
    w.core.Frozen (h.run w).2.core :=
  Hook.run_keeps
    (fun _ _ touched frozen => frozen.trans (touched.frozen (frozen.state_eq.trans running)))
    h w (.refl w.core)

end Dataflow
