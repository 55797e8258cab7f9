import Dataflow.Proofs.Core.Traffic

/-!
# Cores without the edges of their outputs

The edges that are bound to an output decide where its data goes, and nothing else. No request but
the one that counts them tells a core from the core without them, its *hushed* core, and what a
request makes of the one is what it makes of the other, hushed.
-/

namespace Dataflow

/-- Whether a request does not ask how many edges an output has. -/
def Request.Blind (r : Request) : Prop := ∀ port, r ≠ .countEdges port

/-- A port without its edges, if it is an output. -/
def Port.hushed (port : Port) : Direction → Port
  | .input => port
  | .output => { port with edges := [] }

namespace Core

/-- The core without the edges of its outputs. -/
def hushed (c : Core) : Core :=
  { c with ports := c.ports.map fun key port => port.hushed key.direction }

@[simp] theorem hushed_name (c : Core) : c.hushed.name = c.name := rfl

@[simp] theorem hushed_typeName (c : Core) : c.hushed.typeName = c.typeName := rfl

@[simp] theorem hushed_state (c : Core) : c.hushed.state = c.state := rfl

@[simp] theorem hushed_complete (c : Core) : c.hushed.complete = c.complete := rfl

theorem port?_hushed (c : Core) (key : PortKey) :
    c.hushed.port? key = (c.port? key).map (·.hushed key.direction) :=
  Std.ExtTreeMap.getElem?_map

@[simp] theorem port?_hushed_input (c : Core) (name : String) :
    c.hushed.port? (.input name) = c.port? (.input name) := by
  rw [port?_hushed]
  exact Option.map_id'

theorem portNames_hushed (c : Core) (direction : Direction) :
    c.hushed.portNames direction = c.portNames direction := by
  rw [portNames, hushed, Std.ExtTreeMap.keys_map]
  rfl

theorem debug_hushed (c : Core) : c.hushed.debug = c.debug := by
  have hnames : c.hushed.portNames = c.portNames := funext c.portNames_hushed
  delta debug
  rw [hnames, hushed_name, hushed_typeName, hushed_state, hushed_complete]

theorem info_hushed (c : Core) (key : PortKey) : c.hushed.info key = c.info key := by
  rw [info, info, port?_hushed]
  cases c.port? key with
  | none => rfl
  | some port => cases hdirection : key.direction <;> rfl

theorem edgeCount_hushed (c : Core) (name : String) :
    c.hushed.edgeCount (.input name) = c.edgeCount (.input name) := by
  rw [edgeCount, edgeCount, port?_hushed_input]
  rfl

theorem nextStamp_hushed (c : Core) (name : String) :
    c.hushed.nextStamp name = c.nextStamp name := by
  rw [nextStamp, nextStamp, port?_hushed]
  cases c.port? (.output name) <;> rfl

theorem contains_hushed (c : Core) (key : PortKey) :
    c.hushed.ports.contains key = c.ports.contains key := by
  rw [contains_eq, contains_eq, port?_hushed, Option.isSome_map]

/-! ## Changes of a hushed core -/

theorem hushed_modifyPort (c : Core) (key : PortKey) {change : Port → Port}
    (h : ∀ port direction, (change port).hushed direction = change (port.hushed direction)) :
    (c.modifyPort key change).hushed = c.hushed.modifyPort key change := by
  apply eq_of_port? rfl
  intro other
  rw [port?_hushed, port?_modifyPort, port?_modifyPort, port?_hushed]
  split
  · rw [Option.map_map, Option.map_map]
    congr 1
    funext port
    exact h port _
  · rfl

theorem hushed_advance (c : Core) (which : String → Bool) :
    (c.advance which).hushed = c.hushed.advance which := by
  apply eq_of_port? rfl
  intro key
  rw [port?_hushed, port?_advance, port?_advance, port?_hushed, Option.map_map, Option.map_map]
  congr 1
  funext port
  rw [Function.comp_apply, Function.comp_apply]
  split
  · rename_i h
    rw [h.1]
    rfl
  · rfl

theorem hushed_withPort (c : Core) (key : PortKey) (info : PortInfo) (registry : Registry) :
    (c.withPort key info registry).hushed = c.hushed.withPort key info registry := by
  apply eq_of_port? rfl
  intro other
  rw [port?_hushed, port?_withPort, port?_withPort, port?_hushed]
  split
  · cases other.direction <;> rfl
  · rfl

theorem hushed_withoutPort (c : Core) (key : PortKey) :
    (c.withoutPort key).hushed = c.hushed.withoutPort key := by
  apply eq_of_port? rfl
  intro other
  rw [port?_hushed, port?_withoutPort, port?_withoutPort, port?_hushed]
  split <;> rfl

theorem hushed_retype (c : Core) (type : DataType) (key : PortKey) :
    (c.retype type key).hushed = c.hushed.retype type key :=
  c.hushed_modifyPort key fun _ direction => by cases direction <;> rfl

theorem hushed_retypeAll (c : Core) (type : DataType) (members : List PortKey) :
    (members.foldl (retype · type) c).hushed = members.foldl (retype · type) c.hushed := by
  induction members generalizing c with
  | nil => rfl
  | cons key rest ih => rw [List.foldl_cons, ih, hushed_retype, List.foldl_cons]

theorem declare_hushed (c : Core) (key : PortKey) (info : PortInfo) :
    c.hushed.declare key info = ((c.declare key info).1, (c.declare key info).2.hushed) := by
  by_cases early : c.state = .initialized
  · rw [declare, declare, hushed_state, if_pos early, if_pos early]
    rfl
  · cases new : c.port? key with
    | some port =>
      rw [declare, declare, hushed_state, if_neg early, if_neg early, contains_hushed, contains_eq, new]
      rfl
    | none =>
      cases fitting : flagClash? key.direction info.flags with
      | some clash =>
        rw [declare, declare, hushed_state, if_neg early, if_neg early, contains_hushed, contains_eq,
          new, fitting]
        rfl
      | none =>
        obtain ⟨registry, static⟩ := declareStatic_ok c.registry key info.flags
        have new' : c.hushed.port? key = none := by
          rw [port?_hushed, new]
          rfl
        have early' : c.hushed.state ≠ .initialized := early
        have static' : declareStatic c.hushed.registry key info.flags = .ok registry := static
        rw [declare_eq early new fitting static, declare_eq early' new' fitting static',
          hushed_withPort]

theorem remove_hushed (c : Core) (key : PortKey) :
    c.hushed.remove key = ((c.remove key).1, (c.remove key).2.hushed) := by
  rw [remove, remove, contains_hushed, hushed_state]
  split
  · rfl
  · split
    · rfl
    · split
      · exact Prod.ext rfl (c.hushed_withoutPort key).symm
      · rfl

theorem setFrequency_hushed (c : Core) (key : PortKey) (frequency : Frequency) :
    c.hushed.setFrequency key frequency =
      ((c.setFrequency key frequency).1, (c.setFrequency key frequency).2.hushed) := by
  have hretime : (c.retime key frequency).hushed = c.hushed.retime key frequency :=
    c.hushed_modifyPort key fun _ direction => by cases direction <;> rfl
  rw [setFrequency, setFrequency, contains_hushed, hushed_state]
  split
  · rfl
  · split
    · exact Prod.ext rfl hretime.symm
    · rfl

theorem declareKey_hushed (c : Core) (key : String) (info : KeyInfo) :
    c.hushed.declareKey key info = ((c.declareKey key info).1, (c.declareKey key info).2.hushed) := by
  have hregistry : c.hushed.registry = c.registry := rfl
  rw [declareKey, declareKey, hregistry]
  cases c.registry.declare key info <;> rfl

theorem settle_hushed (c : Core) (key : PortKey) (type : String) :
    c.hushed.settle key type = ((c.settle key type).1, (c.settle key type).2.hushed) := by
  have hgroups : c.hushed.groups = c.groups := rfl
  rw [settle, settle, hgroups]
  obtain ⟨settlement, groups⟩ := c.groups.settle key type
  cases settlement with
  | settled members => exact Prod.ext rfl (hushed_retypeAll { c with groups } _ members).symm
  | unchanged => exact Prod.ext rfl (hushed_retype { c with groups } _ key).symm
  | conflict found => rfl

/-- Whether an edge is bound does not depend on the edges of outputs. -/
theorem connect_hushed (c : Core) (key : PortKey) (edge? : Option EdgeId) :
    (c.hushed.connect key edge?).1 = (c.connect key edge?).1 := by
  unfold connect
  cases edge? with
  | none => rfl
  | some edge =>
    rw [hushed_state]
    cases c.state with
    | initialized | created => rfl
    | configured =>
      dsimp only
      rw [port?_hushed]
      cases c.port? key with
      | none => rfl
      | some port =>
        obtain ⟨direction, name⟩ := key
        cases direction with
        | input =>
          dsimp only [Option.map_some, Port.hushed]
          split <;> rfl
        | output =>
          dsimp only [Option.map_some, Port.hushed]
          rw [if_neg (fun h => nomatch h.1), if_neg (fun h => nomatch h.1)]

theorem hushed_bind_output (c : Core) (name : String) (edge : EdgeId) :
    (c.modifyPort (.output name) fun port => { port with edges := port.edges ++ [edge] }).hushed =
      c.hushed := by
  apply eq_of_port? rfl
  intro other
  rw [port?_hushed, port?_hushed, port?_modifyPort]
  split
  · rename_i hother
    rw [hother, Option.map_map]
    rfl
  · rfl

theorem hushed_bind_input (c : Core) (name : String) (edge : EdgeId) :
    (c.modifyPort (.input name) fun port => { port with edges := port.edges ++ [edge] }).hushed =
      c.hushed.modifyPort (.input name) fun port => { port with edges := port.edges ++ [edge] } := by
  apply eq_of_port? rfl
  intro other
  rw [port?_hushed, port?_modifyPort, port?_modifyPort, port?_hushed]
  split
  · rename_i hother
    rw [hother, Option.map_map, Option.map_map]
    rfl
  · rfl

theorem checkProposal_hushed (c : Core) (key : PortKey) (proposed : DataType) :
    c.hushed.checkProposal key proposed = c.checkProposal key proposed := by
  rw [checkProposal, checkProposal, port?_hushed, hushed_state]
  split
  · rfl
  · cases c.port? key with
    | none => rfl
    | some port => cases key.direction <;> rfl

theorem resolve_hushed (c : Core) (key : PortKey) (proposed : DataType) :
    c.hushed.resolve key proposed = ((c.resolve key proposed).1, (c.resolve key proposed).2.hushed) := by
  rw [resolve, resolve, checkProposal_hushed]
  cases c.checkProposal key proposed with
  | error e => rfl
  | ok _ =>
    rw [port?_hushed]
    cases c.port? key with
    | none => rfl
    | some port =>
      have hinfo : (port.hushed key.direction).info = port.info := by
        cases key.direction <;> rfl
      have hdeclared : (port.hushed key.direction).declared = port.declared := by
        cases key.direction <;> rfl
      simp only [Option.map_some, hinfo, hdeclared, settle_hushed]
      -- Whatever the answer is, only a settlement changes anything.
      repeat' split
      all_goals rfl

end Core

namespace World

/-! ## Requests to a hushed core -/

/-- The world whose core is without the edges of its outputs. -/
def hushed (w : World) : World := ⟨w.core.hushed, w.edges⟩

theorem inputEdge?_hushed (w : World) (name : String) : w.hushed.inputEdge? name = w.inputEdge? name := by
  rw [inputEdge?, inputEdge?, hushed, Core.port?_hushed_input]

theorem peek_hushed (w : World) (name : String) (index : Nat) :
    w.hushed.peek name index = w.peek name index := by
  rw [peek, peek, hushed, Core.port?_hushed_input]
  rfl

theorem grab_hushed (w : World) (name : String) :
    w.hushed.grab name = ((w.grab name).1, (w.grab name).2.hushed) := by
  rw [grab, grab, hushed, Core.port?_hushed_input]
  cases w.core.port? (.input name) with
  | none => rfl
  | some port =>
    dsimp only
    cases port.edges <;> rfl

theorem grabAs_hushed (w : World) (name : String) (kind : Payload.Kind) :
    w.hushed.grabAs name kind = ((w.grabAs name kind).1, (w.grabAs name kind).2.hushed) := by
  rw [grabAs, grabAs, grab_hushed]
  obtain ⟨result, after⟩ := w.grab name
  cases result with
  | error e => rfl
  | ok token? =>
    cases token? with
    | none => rfl
    | some token =>
      dsimp only
      cases token.datum.get? kind <;> rfl

theorem grabInput_hushed (w : World) (name : String) (kind : Scalar.Kind) :
    w.hushed.grabInput name kind = ((w.grabInput name kind).1, (w.grabInput name kind).2.hushed) := by
  have hport : w.hushed.core.port? (.input name) = w.core.port? (.input name) :=
    w.core.port?_hushed_input name
  rw [grabInput, grabInput, hport, grabAs_hushed]
  cases w.core.port? (.input name) with
  | none => rfl
  | some port =>
    dsimp only
    split <;> rfl

theorem push_hushed (w : World) (name : String) (datum : Datum) :
    (w.hushed.push name datum).1 = (w.push name datum).1 ∧
      (w.hushed.push name datum).2.core = (w.push name datum).2.core.hushed := by
  constructor
  · rw [push, push, hushed, Core.port?_hushed]
    cases w.core.port? (.output name) <;> rfl
  · rw [push_core, push_core, Core.hushed_advance]
    rfl

/-- A request that does not ask for them does not tell the edges of outputs. -/
theorem perform_hushed (w : World) {r : Request} (blind : r.Blind) :
    (w.hushed.perform r).1 = (w.perform r).1 ∧
      (w.hushed.perform r).2.core = (w.perform r).2.core.hushed := by
  have of_eq {α : Type} {attempt attempt' : Attempt World α}
      (h : attempt' = (attempt.1, attempt.2.hushed)) :
      attempt'.1 = attempt.1 ∧ attempt'.2.core = attempt.2.core.hushed := by
    rw [h]
    exact ⟨rfl, rfl⟩
  have on_core {α : Type} {attempt attempt' : Attempt Core α}
      (h : attempt' = (attempt.1, attempt.2.hushed)) :
      (w.hushed.onCore attempt').1 = (w.onCore attempt).1 ∧
        (w.hushed.onCore attempt').2.core = (w.onCore attempt).2.core.hushed := by
    rw [h]
    exact ⟨rfl, rfl⟩
  cases r with
  | countEdges name => exact absurd rfl (blind name)
  | name | typeName | state | isComplete | level | config | value _ _ => exact ⟨rfl, rfl⟩
  | setLevel level => exact ⟨rfl, rfl⟩
  | markComplete => exact ⟨rfl, rfl⟩
  | portNames direction => exact ⟨congrArg Except.ok (w.core.portNames_hushed direction), rfl⟩
  | debug => exact ⟨congrArg Except.ok w.core.debug_hushed, rfl⟩
  | info key => exact ⟨w.core.info_hushed key, rfl⟩
  | hasEdge name => exact ⟨congrArg ((· != 0) <$> ·) (w.core.edgeCount_hushed name), rfl⟩
  | nextStamp name => exact ⟨w.core.nextStamp_hushed name, rfl⟩
  | peek name index => exact ⟨w.peek_hushed name index, rfl⟩
  | grab name => exact of_eq (w.grab_hushed name)
  | grabAs name kind => exact of_eq (w.grabAs_hushed name kind)
  | grabInput name kind => exact of_eq (w.grabInput_hushed name kind)
  | declare key info => exact on_core (w.core.declare_hushed key info)
  | remove key => exact on_core (w.core.remove_hushed key)
  | setFrequency key frequency => exact on_core (w.core.setFrequency_hushed key frequency)
  | declareKey key info => exact on_core (w.core.declareKey_hushed key info)
  | resolve key proposed => exact on_core (w.core.resolve_hushed key proposed)
  | push name datum => exact w.push_hushed name datum

end World

end Dataflow
