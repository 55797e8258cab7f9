import Dataflow.Process.Plugin

/-!
# Processes

A process is a core with a plugin and what the plugin remembers. It is created, configured, wired,
initialized and stepped, in this order, and a reset takes it back to where it is wired. Every
operation looks at the state first, so that a hook is never run out of its turn.
-/

namespace Dataflow

/-- A core with a plugin and its memory. -/
structure Process (σ : Type) where
  core : Core
  plugin : Plugin σ
  memory : σ

/-- What is done to a process. -/
inductive Command where
  | configure
  | init
  | reset
  | step
  | reconfigure (update : Config)
  | connect (key : PortKey) (edge? : Option EdgeId)
  | setType (key : PortKey) (proposed : DataType)

/-- The result of a command that does not fail. -/
abbrev Command.Reply : Command → Type
  | configure | init | reset | step | connect _ _ => Unit
  | reconfigure _ => List String
  | setType _ _ => Bool

namespace Fault

/-- The message of the datum that is sent when the inputs are not in sync. -/
def desyncMessage : String := "required inputs are not synchronized"

/-- The message of the datum that is sent when an input has an error. -/
def inputErrorMessage : String := "error in a required input"

/-- The datum that is sent when the inputs are not in sync. -/
def desync : Datum := .error desyncMessage

/-- The datum that passes on a status that is not ordinary data. -/
def ofStatus : Status → Datum
  | .error => .error inputErrorMessage
  | status => .marker status

/-- Send a datum from every output in place of results, and drop what one step would take. -/
def send (w : World) (datum : Datum) (heads : List Head) : World :=
  (w.pushToAll datum).drainStep heads

end Fault

namespace Process

variable {σ : Type}

/-- The world that a process sees. -/
def world (p : Process σ) (edges : Edges) : World := ⟨p.core, edges⟩

/-- The process in another state of its life. -/
def setState (p : Process σ) (state : State) : Process σ :=
  { p with core := { p.core with state } }

/-- Put the core of a world in place. -/
def inWorld (p : Process σ) (w : World) : Process σ × Edges := ({ p with core := w.core }, w.edges)

/-- Run a hook of the process. -/
def react {α : Type} (p : Process σ) (edges : Edges) (hook : Reaction σ α) :
    Attempt (Process σ × Edges) α :=
  let ((result, memory), w) := Hook.run (hook p.memory) (p.world edges)
  (result, { p with memory }.inWorld w)

/-- What a scheduler should know. Inputs that are not checked need not be in sync. -/
def properties (p : Process σ) : Properties :=
  let properties := p.plugin.properties p.memory
  if p.core.level = .none then properties.insert .unsyncInput else properties

/-- Make a process: its ports and keys are declared. The process is usable only if nothing
failed. -/
def create (config : Config) (plugin : Plugin σ) (memory : σ) (edges : Edges) :
    Attempt (Process σ × Edges) Unit :=
  react ⟨.ofConfig config, plugin, memory⟩ edges plugin.declare

/-- Run a hook, and go over to a state if it does not fail. -/
def advance (p : Process σ) (edges : Edges) (hook : Reaction σ Unit) (state : State) :
    Attempt (Process σ × Edges) Unit :=
  match p.react edges hook with
  | (.error e, after) => (.error e, after)
  | (.ok (), p, edges) => (.ok (), p.setState state, edges)

/-- Find types and check the configuration. -/
def configure (p : Process σ) (edges : Edges) : Attempt (Process σ × Edges) Unit :=
  if p.core.state = .created then p.advance edges p.plugin.configure .configured
  else (.error (.alreadyConfigured p.core.name), p, edges)

/-- Freeze the declarations and the wiring. -/
def init (p : Process σ) (edges : Edges) : Attempt (Process σ × Edges) Unit :=
  match p.core.state with
  | .created => (.error (.unconfigured p.core.name), p, edges)
  | .initialized => (.error (.reinitialized p.core.name), p, edges)
  | .configured => p.advance edges p.plugin.init .initialized

/-- The process before its reset hook runs: without edges, and initialized no more. -/
def rewind (p : Process σ) : Process σ :=
  let core := p.core.detachAll
  { p with core := if core.state = .initialized then { core with state := .configured } else core }

/-- Unbind all edges and forget the run, even if the hook fails. -/
def reset (p : Process σ) (edges : Edges) : Attempt (Process σ × Edges) Unit :=
  p.rewind.react edges p.plugin.reset

/-- The verdict on the heads of the process. -/
def judge (p : Process σ) (edges : Edges) : Verdict :=
  verdict p.core.level (!p.properties.contains .unsyncInput) (p.world edges).requiredHeads

/-- What a step does before its report, if the process is not complete. -/
def act (p : Process σ) (edges : Edges) : Attempt (Process σ × Edges) Unit :=
  let w := p.world edges
  let heads := w.requiredHeads
  match p.judge edges with
  | .step => p.react edges p.plugin.step
  | .desync => (.ok (), p.inWorld (Fault.send w Fault.desync heads))
  | .propagate status =>
    let w := if status = .complete then { w with core := w.core.markComplete } else w
    (.ok (), p.inWorld (Fault.send w (Fault.ofStatus status) heads))

/-- Run one step, and report it. A failed hook goes without a report. -/
def step (p : Process σ) (edges : Edges) : Attempt (Process σ × Edges) Unit :=
  if p.core.state = .initialized then
    let acted := if p.core.complete then (.ok (), p, edges) else p.act edges
    match acted with
    | (.error e, after) => (.error e, after)
    | (.ok (), p, edges) => (.ok (), p.inWorld (p.world edges).beat)
  else (.error (.uninitialized p.core.name), p, edges)

/-- Run steps until one fails. -/
def steps (p : Process σ) (edges : Edges) : Nat → Attempt (Process σ × Edges) Unit
  | 0 => (.ok (), p, edges)
  | count + 1 =>
    match p.step edges with
    | (.error e, after) => (.error e, after)
    | (.ok (), p, edges) => p.steps edges count

/-- Apply an update to the tunable keys. The keys that changed are given. -/
def reconfigure (p : Process σ) (edges : Edges) (update : Config) :
    Attempt (Process σ × Edges) (List String) :=
  if p.core.state = .initialized then
    let (changed, registry) := p.core.registry.reconfigure update
    let p := { p with core := { p.core with registry } }
    match p.react edges (p.plugin.reconfigure update) with
    | (.error e, after) => (.error e, after)
    | (.ok (), after) => (.ok changed, after)
  else (.error (.reconfiguredEarly p.core.name), p, edges)

/-- Bind an edge to a port. -/
def connect (p : Process σ) (edges : Edges) (key : PortKey) (edge? : Option EdgeId) :
    Attempt (Process σ × Edges) Unit :=
  let (result, core) := p.core.connect key edge?
  (result, { p with core }, edges)

/-- Propose a type for a port: whether the process accepts it. -/
def setType (p : Process σ) (edges : Edges) (key : PortKey) (proposed : DataType) :
    Attempt (Process σ × Edges) Bool :=
  match p.core.checkProposal key proposed with
  | .error e => (.error e, p, edges)
  | .ok () => p.react edges (p.plugin.proposeType key proposed)

/-- Do what a command says. -/
def perform (p : Process σ) (edges : Edges) : (c : Command) → Attempt (Process σ × Edges) c.Reply
  | .configure => p.configure edges
  | .init => p.init edges
  | .reset => p.reset edges
  | .step => p.step edges
  | .reconfigure update => p.reconfigure edges update
  | .connect key edge? => p.connect edges key edge?
  | .setType key proposed => p.setType edges key proposed

/-- The diagnostic text of a process. -/
def debug (p : Process σ) : String := "Process \x7b core: " ++ p.core.debug ++ " \x7d"

end Process

end Dataflow
