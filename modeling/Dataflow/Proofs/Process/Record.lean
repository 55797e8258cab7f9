import Dataflow.Proofs.Process.Regular
import Dataflow.Proofs.Process.Task

/-!
# The record of a process

All that is ever done to the registry of a process is put down in its record: the declarations of
its hooks, in whatever turn they are made, and the updates that find it initialized. So what a
history says of a registry, the record of a process says of its keys.
-/

namespace Dataflow

open Registry (Entry)

/-! ## Requests -/

namespace Core

/-- What comes with a declared port: the key of a static input, unless there is one already. -/
def staticEntries (c : Core) (key : PortKey) (flags : Flags) : List Entry :=
  if key.direction = .input ∧ flags.static = true ∧
      c.registry.isDeclared (staticKey key.name) = false then
    [.declare (staticKey key.name) (staticInfo key.name)]
  else []

theorem declareStatic_enter {c : Core} {key : PortKey} {flags : Flags} {registry : Registry}
    (h : declareStatic c.registry key flags = .ok registry) :
    registry = c.registry.after (c.staticEntries key flags) := by
  rw [declareStatic] at h
  rw [staticEntries]
  split at h
  · rename_i hstatic
    rw [if_pos hstatic]
    have henter : c.registry.enter (.declare (staticKey key.name) (staticInfo key.name)) =
        registry := by
      rw [Registry.enter, h]
      rfl
    exact henter.symm
  · rename_i hstatic
    rw [if_neg hstatic]
    exact (Except.ok.inj h).symm

theorem declare_registry (c : Core) (key : PortKey) (info : PortInfo) :
    (c.declare key info).2.registry = c.registry.after
      (if (c.declare key info).1.isOk then c.staticEntries key info.flags else []) := by
  have hdeclared := c.declared key info
  generalize c.declare key info = attempt at hdeclared ⊢
  cases hdeclared with
  | late | known | unfit => rfl
  | made early new fitting static => exact declareStatic_enter static

end Core

namespace World

/-- What a request does to the registry. -/
def entries (w : World) : Request → List Entry
  | .declareKey key info => [.declare key info]
  | .declare key info =>
    if (w.core.declare key info).1.isOk then w.core.staticEntries key info.flags else []
  | _ => []

theorem perform_registry (w : World) (r : Request) :
    (w.perform r).2.core.registry = w.core.registry.after (w.entries r) := by
  cases r with
  | declareKey key info => exact w.core.declareKey_registry key info
  | declare key info => exact w.core.declare_registry key info
  | remove key => exact w.core.remove_registry key
  | setFrequency key frequency => exact w.core.setFrequency_registry key frequency
  | resolve key proposed => exact w.core.resolve_registry key proposed
  | grab port => exact congrArg Core.registry (w.grab_core port)
  | grabAs port kind => exact congrArg Core.registry (w.grabAs_core port kind)
  | grabInput port kind => exact congrArg Core.registry (w.grabInput_core port kind)
  | push port datum =>
    have hcore := congrArg Core.registry (w.push_core port datum)
    exact hcore
  | name | typeName | state | isComplete | level | portNames _ | config | debug | info _
  | hasEdge _ | countEdges _ | nextStamp _ | value _ _ | peek _ _ | setLevel _ | markComplete => rfl

end World

theorem Hook.run_registry {α : Type} (h : Hook α) (w : World) :
    (h.run w).2.core.registry = w.core.registry.after (h.along World.entries w) := by
  induction h generalizing w with
  | done result => rfl
  | ask request next ih =>
    -- The rest of the hook begins with the registry that its first request leaves.
    rw [run_ask, ih, w.perform_registry, along, Registry.after_append]

/-! ## Commands -/

theorem Task.reach_registry {σ α : Type} (task : Task σ α) (result : Except ProcessError α)
    (core : Core) : (task.reach result core).registry = core.registry := by
  unfold reach
  cases result <;> cases task.goal? <;> rfl

namespace Process

variable {σ : Type}

/-- The update that a command brings. It counts if the process is initialized, whatever its hook
makes of it then. -/
def updates (p : Process σ) : Command → List Entry
  | .reconfigure update => if p.core.state = .initialized then [.reconfigure update] else []
  | _ => []

/-- What a command does to the registry: its update first, and then what its hook declares. -/
def entries (p : Process σ) (edges : Edges) (command : Command) : List Entry :=
  p.updates command ++ (p.task command).hook.along World.entries ⟨(p.task command).core, edges⟩

def entriesAlong (p : Process σ) : List (Edges × Command) → List Entry
  | [] => []
  | (edges, command) :: rest =>
    p.entries edges command ++ (p.perform edges command).2.1.entriesAlong rest

/-- The record of a process from its making on. -/
def record (config : Config) (plugin : Plugin σ) (memory : σ) (edges : Edges)
    (commands : List (Edges × Command)) : List Entry :=
  [.declare Config.nameKey Core.nameInfo, .declare Config.typeKey Core.typeInfo] ++
    ((plugin.declare memory).along World.entries ⟨.ofConfig config, edges⟩ ++
      (create config plugin memory edges).2.1.entriesAlong commands)

theorem task_registry (p : Process σ) (command : Command) :
    (p.task command).core.registry = p.core.registry.after (p.updates command) := by
  -- Only an update reaches the registry before the hook runs.
  cases command with
  | configure =>
    rw [task]
    split <;> rfl
  | init =>
    rw [task]
    split <;> rfl
  | reset =>
    show p.rewind.core.registry = p.core.registry
    rw [rewind]
    split <;> rfl
  | step =>
    rw [task]
    split <;> rfl
  | reconfigure update =>
    rw [task, updates]
    split <;> rfl
  | connect key edge? => exact p.core.connect_registry key edge?
  | setType key proposed =>
    rw [task]
    split <;> rfl

theorem perform_registry (p : Process σ) (edges : Edges) (command : Command) :
    (p.perform edges command).2.1.core.registry = p.core.registry.after (p.entries edges command) := by
  have hprocess := (p.perform_task edges command).process_eq
  -- The update is made before the hook runs, and what the command reaches after it is no key.
  rw [hprocess, entries, Registry.after_append, ← task_registry]
  exact (Task.reach_registry _ _ _).trans (Hook.run_registry _ _)

theorem follow_registry (p : Process σ) (commands : List (Edges × Command)) :
    (p.follow commands).core.registry = p.core.registry.after (p.entriesAlong commands) := by
  induction commands generalizing p with
  | nil => rfl
  | cons given rest ih =>
    obtain ⟨edges, command⟩ := given
    rw [follow, ih, p.perform_registry, entriesAlong, Registry.after_append]

theorem ofConfig_registry (config : Config) :
    (Core.ofConfig config).registry = (Registry.ofConfig config).after
      [.declare Config.nameKey Core.nameInfo, .declare Config.typeKey Core.typeInfo] := by
  rw [Core.ofConfig_eq]
  show (Core.titled config).registry = _
  rw [Core.titled, Core.declareKey_registry, Core.declareKey_registry]
  rfl

theorem registry_eq (config : Config) (plugin : Plugin σ) (memory : σ) (edges : Edges)
    (commands : List (Edges × Command)) :
    ((create config plugin memory edges).2.1.follow commands).core.registry =
      (Registry.ofConfig config).after (record config plugin memory edges commands) := by
  have hcreate : (create config plugin memory edges).2.1.core.registry =
      (Core.ofConfig config).registry.after
        ((plugin.declare memory).along World.entries ⟨.ofConfig config, edges⟩) :=
    Hook.run_registry (plugin.declare memory) ⟨.ofConfig config, edges⟩
  rw [follow_registry, hcreate, ofConfig_registry, record, Registry.after_append,
    Registry.after_append]

/-- A registry is what its history says, and that of a process is what its record says: a key that
was ever declared has the last text that was given to it while it was declared to be tunable, or
else its configured one, or else the default of its first declaration. -/
theorem registry_tells :
    (∀ config history, ((Registry.ofConfig config).after history).Tells config history) ∧
      ∀ (σ : Type) (config : Config) (plugin : Plugin σ) (memory : σ) (edges : Edges)
        (commands : List (Edges × Command)),
        ((create config plugin memory edges).2.1.follow commands).core.registry.Tells config
          (record config plugin memory edges commands) := by
  refine ⟨Registry.tells_after, fun σ config plugin memory edges commands => ?_⟩
  rw [registry_eq]
  exact Registry.tells_after config _

end Process

end Dataflow
