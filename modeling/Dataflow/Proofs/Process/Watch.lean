import Dataflow.Proofs.Process.Life

/-!
# Watched plugins

Which hooks a process runs is told here by the hooks themselves. A watched plugin does what the
plugin does and keeps a log besides: for every hook that is run, what the hook sees of its process
as it begins and as it ends. The log is written with requests only, so it holds nothing but what a
hook can know. `perform_watched` says that the watch changes nothing, and what a command adds to the
log.
-/

namespace Dataflow

/-- The turns in which a plugin has a hook to run. -/
inductive Turn where
  | declare
  | configure
  | init
  | step
  | reset
  | reconfigure (update : Config)
  | proposeType (key : PortKey) (proposed : DataType)

/-- What a hook sees of its process: for every input whether it is bound, and for every output the
number of its edges and its next stamp. -/
structure Sight where
  state : State
  complete : Bool
  inputs : List (String × Bool)
  outputs : List (String × Nat × Stamp)

/-- A hook that was run: what it saw at its beginning and at its end, and whether it succeeded. -/
structure Call where
  turn : Turn
  before : Sight
  succeeded : Bool
  after : Sight

namespace World

/-- The edges that are bound to a port. -/
def boundTo (w : World) (key : PortKey) : List EdgeId := ((w.core.port? key).map Port.edges).getD []

def nextStamp (w : World) (name : String) : Stamp :=
  ((w.core.port? (.output name)).map Port.stamp).getD .first

def sight (w : World) : Sight where
  state := w.core.state
  complete := w.core.complete
  inputs := (w.core.portNames .input).map fun name =>
    (name, (w.boundTo (.input name)).length != 0)
  outputs := (w.core.portNames .output).map fun name =>
    (name, (w.boundTo (.output name)).length, w.nextStamp name)

end World

namespace Reaction

variable {σ α β : Type}

/-- Look around. -/
def look : Reaction σ Sight := do
  let state ← request .state
  let complete ← request .isComplete
  let inputs ← (← request (.portNames .input)).mapM fun name =>
    return (name, ← request (.hasEdge name))
  let outputs ← (← request (.portNames .output)).mapM fun name =>
    return (name, ← request (.countEdges name), ← request (.nextStamp name))
  return { state, complete, inputs, outputs }

/-- Run a hook, and log what is seen before it and after it. -/
def watched (turn : Turn) (hook : Reaction σ α) : Reaction (σ × List Call) α :=
  fun (memory, log) => do
    match ← (look : Reaction Unit Sight) () with
    | (.error e, _) => return (.error e, memory, log)
    | (.ok before, _) =>
      let (result, memory) ← hook memory
      match ← (look : Reaction Unit Sight) () with
      | (.error e, _) => return (.error e, memory, log)
      | (.ok after, _) => return (result, memory, log ++ [⟨turn, before, result.isOk, after⟩])

/-! ## Looking around changes nothing -/

theorem run_bind_ok {r : Reaction σ α} {rest : α → Reaction σ β} {memory memory' : σ} {w w' : World}
    {a : α} (h : Hook.run (r memory) w = ((.ok a, memory'), w')) :
    Hook.run ((r >>= rest) memory) w = Hook.run (rest a memory') w' := by
  change Hook.run (Hook.bind (r memory) _) w = _
  rw [Hook.run_bind, h]
  rfl

theorem run_request {r : Request} {answer : r.Reply} {w after : World}
    (h : w.perform r = (.ok answer, after)) (memory : σ) :
    Hook.run ((request r : Reaction σ r.Reply) memory) w = ((.ok answer, memory), after) := by
  change (((w.perform r).1, memory), (w.perform r).2) = _
  rw [h]

theorem run_mapM {ask : α → Reaction σ β} {answer : α → β} {w : World} {memory : σ}
    {questions : List α}
    (h : ∀ a ∈ questions, Hook.run (ask a memory) w = ((.ok (answer a), memory), w)) :
    Hook.run (questions.mapM ask memory) w = ((.ok (questions.map answer), memory), w) := by
  induction questions with
  | nil => rfl
  | cons first rest ih =>
    have hfirst := h first List.mem_cons_self
    have hrest := ih fun a ha => h a (List.mem_cons_of_mem _ ha)
    rw [List.mapM_cons, run_bind_ok hfirst, run_bind_ok hrest]
    rfl

theorem run_look (memory : σ) (w : World) :
    Hook.run ((look : Reaction σ Sight) memory) w = ((.ok w.sight, memory), w) := by
  have hinputs : ∀ name ∈ w.core.portNames .input,
      Hook.run ((do return (name, ← request (.hasEdge name)) : Reaction σ (String × Bool)) memory) w =
        ((.ok (name, (w.boundTo (.input name)).length != 0), memory), w) := by
    intro name hname
    obtain ⟨port, hport⟩ := Core.mem_portNames.mp hname
    have hedge : w.perform (.hasEdge name) = (.ok ((w.boundTo (.input name)).length != 0), w) := by
      simp only [World.perform, Core.edgeCount, World.boundTo, PortKey.input, hport]
      rfl
    rw [run_bind_ok (run_request hedge memory)]
    rfl
  have houtputs : ∀ name ∈ w.core.portNames .output,
      Hook.run ((do return (name, ← request (.countEdges name), ← request (.nextStamp name)) :
        Reaction σ (String × Nat × Stamp)) memory) w =
        ((.ok (name, (w.boundTo (.output name)).length, w.nextStamp name), memory), w) := by
    intro name hname
    obtain ⟨port, hport⟩ := Core.mem_portNames.mp hname
    have hcount : w.perform (.countEdges name) = (.ok (w.boundTo (.output name)).length, w) := by
      simp only [World.perform, Core.edgeCount, World.boundTo, PortKey.output, hport]
      rfl
    have hstamp : w.perform (.nextStamp name) = (.ok (w.nextStamp name), w) := by
      simp only [World.perform, Core.nextStamp, World.nextStamp, PortKey.output, hport]
      rfl
    rw [run_bind_ok (run_request hcount memory), run_bind_ok (run_request hstamp memory)]
    rfl
  have hstate : w.perform .state = (.ok w.core.state, w) := rfl
  have hcomplete : w.perform .isComplete = (.ok w.core.complete, w) := rfl
  have hnames (direction : Direction) :
      w.perform (.portNames direction) = (.ok (w.core.portNames direction), w) := rfl
  rw [look, run_bind_ok (run_request hstate memory), run_bind_ok (run_request hcomplete memory),
    run_bind_ok (run_request (hnames .input) memory), run_bind_ok (run_mapM hinputs),
    run_bind_ok (run_request (hnames .output) memory), run_bind_ok (run_mapM houtputs)]
  rfl

theorem run_watched (turn : Turn) (hook : Reaction σ α) (memory : σ) (log : List Call) (w : World) :
    Hook.run (hook.watched turn (memory, log)) w =
      let ran := Hook.run (hook memory) w
      ((ran.1.1, ran.1.2, log ++ [⟨turn, w.sight, ran.1.1.isOk, ran.2.sight⟩]), ran.2) := by
  -- Three parts one after the other: a look around, the hook itself, and another look around.
  change Hook.run (Hook.bind _ _) w = _
  rw [Hook.run_bind, run_look]
  change Hook.run (Hook.bind _ _) w = _
  rw [Hook.run_bind]
  change Hook.run (Hook.bind _ _) _ = _
  rw [Hook.run_bind, run_look]
  rfl

end Reaction

variable {σ : Type}

/-- The plugin with its hooks watched. -/
def Plugin.watched (plugin : Plugin σ) : Plugin (σ × List Call) where
  declare := plugin.declare.watched .declare
  configure := plugin.configure.watched .configure
  init := plugin.init.watched .init
  step := plugin.step.watched .step
  reset := plugin.reset.watched .reset
  reconfigure update := (plugin.reconfigure update).watched (.reconfigure update)
  properties memory := plugin.properties memory.1
  proposeType key proposed := (plugin.proposeType key proposed).watched (.proposeType key proposed)

namespace Process

/-- The process with its hooks watched, and what the log holds so far. -/
def watched (p : Process σ) (log : List Call) : Process (σ × List Call) :=
  ⟨p.core, p.plugin.watched, p.memory, log⟩

/-- What an attempt gives if the hooks are watched. -/
def logged {α : Type} (attempt : Attempt (Process σ × Edges) α) (log : List Call) :
    Attempt (Process (σ × List Call) × Edges) α :=
  (attempt.1, attempt.2.1.watched log, attempt.2.2)

/-- The call of a hook. -/
def call {α : Type} (p : Process σ) (edges : Edges) (turn : Turn) (hook : Reaction σ α) : Call :=
  ⟨turn, (p.world edges).sight, (p.react edges hook).1.isOk, (p.ending edges hook).sight⟩

/-- The hooks that a command runs. -/
def calls (p : Process σ) (edges : Edges) : Command → List Call
  | .configure => if p.core.state = .created then [p.call edges .configure p.plugin.configure] else []
  | .init => if p.core.state = .configured then [p.call edges .init p.plugin.init] else []
  | .reset => [p.rewind.call edges .reset p.plugin.reset]
  | .step =>
    if p.core.state = .initialized ∧ p.core.complete = false ∧ p.judge edges = .step then
      [p.call edges .step p.plugin.step]
    else []
  | .reconfigure update =>
    if p.core.state = .initialized then
      [(p.retuned update).call edges (.reconfigure update) (p.plugin.reconfigure update)]
    else []
  | .connect _ _ => []
  | .setType key proposed =>
    match p.core.checkProposal key proposed with
    | .ok () => [p.call edges (.proposeType key proposed) (p.plugin.proposeType key proposed)]
    | .error _ => []

@[simp] theorem watched_core (p : Process σ) (log : List Call) : (p.watched log).core = p.core := rfl

@[simp] theorem watched_judge (p : Process σ) (log : List Call) (edges : Edges) :
    (p.watched log).judge edges = p.judge edges := rfl

theorem react_watched {α : Type} (p : Process σ) (edges : Edges) (turn : Turn)
    (hook : Reaction σ α) (log : List Call) :
    (p.watched log).react edges (hook.watched turn) =
      logged (p.react edges hook) (log ++ [p.call edges turn hook]) := by
  have hrun := Reaction.run_watched turn hook p.memory log (p.world edges)
  change (let ((result, memory), w) := Hook.run (hook.watched turn (p.memory, log)) (p.world edges)
    (result, { p.watched log with memory }.inWorld w)) = _
  rw [hrun]
  rfl

theorem advance_watched (p : Process σ) (edges : Edges) (turn : Turn) (hook : Reaction σ Unit)
    (state : State) (log : List Call) :
    (p.watched log).advance edges (hook.watched turn) state =
      logged (p.advance edges hook state) (log ++ [p.call edges turn hook]) := by
  rw [advance, advance, react_watched]
  obtain ⟨result, after⟩ := p.react edges hook
  cases result <;> rfl

theorem configure_watched (p : Process σ) (edges : Edges) (log : List Call) :
    (p.watched log).configure edges = logged (p.configure edges) (log ++ p.calls edges .configure) := by
  rw [configure, configure, calls, watched_core]
  by_cases created : p.core.state = .created
  · rw [if_pos created, if_pos created, if_pos created]
    exact p.advance_watched edges .configure p.plugin.configure .configured log
  · rw [if_neg created, if_neg created, if_neg created, List.append_nil]
    rfl

theorem init_watched (p : Process σ) (edges : Edges) (log : List Call) :
    (p.watched log).init edges = logged (p.init edges) (log ++ p.calls edges .init) := by
  rw [init, init, calls, watched_core]
  cases hstate : p.core.state with
  | configured => exact p.advance_watched edges .init p.plugin.init .initialized log
  | created =>
    rw [if_neg (by decide), List.append_nil]
    rfl
  | initialized =>
    rw [if_neg (by decide), List.append_nil]
    rfl

theorem act_watched (p : Process σ) (edges : Edges) (log : List Call) :
    (p.watched log).act edges = logged (p.act edges)
      (log ++ if p.judge edges = .step then [p.call edges .step p.plugin.step] else []) := by
  rw [act, act, watched_judge]
  cases p.judge edges with
  | step => exact p.react_watched edges .step p.plugin.step log
  | desync =>
    rw [if_neg Verdict.noConfusion, List.append_nil]
    rfl
  | propagate status =>
    rw [if_neg Verdict.noConfusion, List.append_nil]
    rfl

theorem step_watched (p : Process σ) (edges : Edges) (log : List Call) :
    (p.watched log).step edges = logged (p.step edges) (log ++ p.calls edges .step) := by
  rw [step, step, calls, watched_core]
  by_cases running : p.core.state = .initialized
  · rw [if_pos running, if_pos running]
    cases complete : p.core.complete with
    | true =>
      rw [if_pos rfl, if_pos rfl, if_neg (fun h => Bool.noConfusion h.2.1), List.append_nil]
      rfl
    | false =>
      simp only [running, true_and, Bool.false_eq_true, if_false, act_watched]
      generalize p.act edges = acted
      obtain ⟨result, after⟩ := acted
      cases result <;> rfl
  · rw [if_neg running, if_neg running, if_neg (fun h => running h.1), List.append_nil]
    rfl

theorem reconfigure_of_running {p : Process σ} (running : p.core.state = .initialized)
    (edges : Edges) (update : Config) :
    p.reconfigure edges update =
      match (p.retuned update).react edges (p.plugin.reconfigure update) with
      | (.error e, after) => (.error e, after)
      | (.ok (), after) => (.ok (p.core.registry.reconfigure update).1, after) := by
  rw [reconfigure, if_pos running]
  rfl

theorem reconfigure_watched (p : Process σ) (edges : Edges) (update : Config) (log : List Call) :
    (p.watched log).reconfigure edges update =
      logged (p.reconfigure edges update) (log ++ p.calls edges (.reconfigure update)) := by
  by_cases running : p.core.state = .initialized
  · have hreact := (p.retuned update).react_watched edges (.reconfigure update)
      (p.plugin.reconfigure update) log
    -- The update is applied before the hook runs, so it is the updated process that is watched.
    have hretuned : (p.watched log).retuned update = (p.retuned update).watched log := rfl
    rw [reconfigure_of_running running, reconfigure_of_running (p := p.watched log) running, calls,
      if_pos running, hretuned, watched_core]
    rw [show (p.watched log).plugin.reconfigure update =
      (p.plugin.reconfigure update).watched (.reconfigure update) from rfl, hreact]
    obtain ⟨result, after⟩ := (p.retuned update).react edges (p.plugin.reconfigure update)
    cases result <;> rfl
  · rw [reconfigure, reconfigure, calls, watched_core, if_neg running, if_neg running,
      if_neg running, List.append_nil]
    rfl

theorem setType_watched (p : Process σ) (edges : Edges) (key : PortKey) (proposed : DataType)
    (log : List Call) :
    (p.watched log).setType edges key proposed =
      logged (p.setType edges key proposed) (log ++ p.calls edges (.setType key proposed)) := by
  rw [setType, setType, calls, watched_core]
  cases p.core.checkProposal key proposed with
  | error e =>
    rw [List.append_nil]
    rfl
  | ok _ => exact p.react_watched edges (.proposeType key proposed) _ log

/-- A watched process does what the process does, and adds the calls of the command to its log. -/
theorem perform_watched (p : Process σ) (edges : Edges) (command : Command) (log : List Call) :
    (p.watched log).perform edges command =
      logged (p.perform edges command) (log ++ p.calls edges command) := by
  cases command with
  | configure => exact p.configure_watched edges log
  | init => exact p.init_watched edges log
  | reset => exact p.rewind.react_watched edges .reset p.plugin.reset log
  | step => exact p.step_watched edges log
  | reconfigure update => exact p.reconfigure_watched edges update log
  | connect key edge? =>
    rw [calls, List.append_nil]
    rfl
  | setType key proposed => exact p.setType_watched edges key proposed log

end Process

end Dataflow
