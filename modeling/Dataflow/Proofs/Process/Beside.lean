import Dataflow.Proofs.Core.Near
import Dataflow.Proofs.Process.Output

/-!
# Commands side by side

Two processes with one plugin that remember the same are given the same command in worlds that are
`Near`. If no hook asks how many edges an output has, the hooks ask the same and are replied the same,
the command comes to the same and sends the same, and the worlds that it leaves are as near as they
were.
-/

namespace Dataflow

namespace Hook

variable {α γ : Type} {hidden : EdgeId → Prop} {w other : World}

theorem run_near {h : Hook α} (blind : h.AsksOnly Request.Blind) (near : w.Near hidden other) :
    (h.run w).1 = (h.run other).1 ∧ (h.run w).2.Near hidden (h.run other).2 := by
  induction h generalizing w other with
  | done result => exact ⟨rfl, near⟩
  | ask r next ih =>
    -- The same reply leads to the same rest of the hook.
    have hreply := (near.reply_eq blind.1).1
    rw [run_ask, run_ask, ← hreply]
    exact ih _ (blind.2 _) (near.perform blind.1)

theorem along_near {what : World → Request → List γ} {R : γ → γ → Prop}
    (here : ∀ {w other : World} {r : Request}, w.Near hidden other → r.Blind →
      List.Forall₂ R (what other r) (what w r))
    {h : Hook α} (blind : h.AsksOnly Request.Blind) (near : w.Near hidden other) :
    List.Forall₂ R (h.along what other) (h.along what w) := by
  induction h generalizing w other with
  | done result => exact .nil
  | ask r next ih =>
    have hreply := (near.reply_eq blind.1).1
    rw [along, along, ← hreply]
    exact List.rel_append (here near blind.1) (ih _ (blind.2 _) (near.perform blind.1))

theorem dispatched_near {h : Hook α} (blind : h.AsksOnly Request.Blind) (near : w.Near hidden other) :
    List.Forall₂ (Dispatch.Spares hidden) (h.dispatched other) (h.dispatched w) := by
  refine along_near (fun near _ => ?_) blind near
  exact near.dispatched _

/-! ## What the engine asks -/

theorem blind_sendEach (datum : Datum) (names : List String) :
    (sendEach datum names).AsksOnly Request.Blind := by
  induction names with
  | nil => trivial
  | cons name rest ih => exact ⟨nofun, fun _ => ih⟩

theorem blind_fault (datum : Datum) (heads : List Head) :
    (fault datum heads).AsksOnly Request.Blind := by
  refine AsksOnly.bind ⟨nofun, fun names => ?_⟩ fun _ => (plain_drainStep heads).mono fun _ => And.right
  cases names with
  | error e => trivial
  | ok names => exact blind_sendEach datum _

theorem blind_beat : beat.AsksOnly Request.Blind := by
  refine ⟨nofun, fun complete => ?_⟩
  cases complete with
  | error e => trivial
  | ok complete => exact ⟨nofun, fun _ => trivial⟩

end Hook

/-- Whether the hooks of the commands never ask how many edges an output has. -/
structure Plugin.Blind {σ : Type} (plugin : Plugin σ) : Prop where
  configure (memory : σ) : (plugin.configure memory).AsksOnly Request.Blind
  init (memory : σ) : (plugin.init memory).AsksOnly Request.Blind
  step (memory : σ) : (plugin.step memory).AsksOnly Request.Blind
  reset (memory : σ) : (plugin.reset memory).AsksOnly Request.Blind
  reconfigure (update : Config) (memory : σ) :
    (plugin.reconfigure update memory).AsksOnly Request.Blind
  proposeType (key : PortKey) (proposed : DataType) (memory : σ) :
    (plugin.proposeType key proposed memory).AsksOnly Request.Blind

namespace Process

variable {σ : Type}

theorem blind_round {p : Process σ} (blind : p.plugin.Blind) : p.round.AsksOnly Request.Blind := by
  have hreport (ran : Except ProcessError Unit × σ) : (report ran).AsksOnly Request.Blind := by
    obtain ⟨result, memory⟩ := ran
    cases result with
    | error e => trivial
    | ok _ => exact Hook.blind_beat.bind fun _ => trivial
  have hfault (datum : Datum) (heads : List Head) :
      ((Hook.fault datum heads).bind fun _ =>
        Hook.done ((.ok (), p.memory) : Except ProcessError Unit × σ)).AsksOnly Request.Blind :=
    (Hook.blind_fault datum heads).bind fun _ => trivial
  -- A complete process only reports. Any other looks at its heads first, then it runs the hook of
  -- the plugin, or it sends a fault.
  refine Hook.AsksOnly.bind ?_ hreport
  unfold work
  split
  · trivial
  · refine Hook.AsksOnly.bind (Hook.plain_survey.mono fun _ => And.right) fun heads => ?_
    unfold response
    split
    · exact blind.step p.memory
    · exact hfault _ _
    · split
      · exact ⟨nofun, fun _ => hfault _ _⟩
      · exact hfault _ _

theorem blind_task {p : Process σ} (blind : p.plugin.Blind) (command : Command) :
    (p.task command).hook.AsksOnly Request.Blind := by
  cases command with
  | configure =>
    unfold task
    dsimp only
    split
    · exact blind.configure p.memory
    · trivial
  | init =>
    unfold task
    dsimp only
    split
    · trivial
    · trivial
    · exact blind.init p.memory
  | reset => exact blind.reset p.memory
  | step =>
    unfold task
    dsimp only
    split
    · exact blind_round blind
    · trivial
  | reconfigure update =>
    unfold task
    dsimp only
    split
    · exact (blind.reconfigure update p.memory).bind fun _ => trivial
    · trivial
  | connect key edge? => trivial
  | setType key proposed =>
    unfold task
    dsimp only
    split
    · trivial
    · exact blind.proposeType key proposed p.memory

end Process

/-! ## Worlds behind a command -/

theorem Core.rewound_hushed (c : Core) : c.hushed.rewound = c.rewound.hushed := by
  apply eq_of_port?
  · rw [rewound, rewound, hushed_state]
    split <;> rfl
  · intro key
    rw [port?_rewound, port?_hushed, port?_hushed, port?_rewound, Option.map_map, Option.map_map]
    congr 1
    funext port
    cases key.direction <;> rfl

namespace World.Near

variable {hidden : EdgeId → Prop} {w other : World}

theorem of_alike {w' other' : World} (h : w.Near hidden other) (hw : w.Alike w')
    (hother : other.Alike other') : w'.Near hidden other' where
  core_eq := by
    rw [← hw.core_eq, ← hother.core_eq, h.core_eq]
  spared := by
    rw [← hw.core_eq, ← hother.core_eq]
    exact h.spared
  queue_eq {edge} seen := by
    rw [← hw.queue_eq, ← hother.queue_eq, h.queue_eq seen]
  inputs := by
    rw [← hw.core_eq]
    exact h.inputs

theorem rewound (h : w.Near hidden other) :
    World.Near hidden ⟨w.core.rewound, w.edges⟩ ⟨other.core.rewound, other.edges⟩ := by
  -- A reset unbinds everything, so it does not matter what was bound before.
  have hbare {c : Core} {key : PortKey} {port : Port} (hport : c.rewound.port? key = some port) :
      port.edges = [] := by
    rw [Core.port?_rewound] at hport
    obtain ⟨before, -, rfl⟩ := Option.map_eq_some_iff.mp hport
    rfl
  refine h.of_bare ?_ hbare hbare
  rw [← Core.rewound_hushed, ← Core.rewound_hushed, h.core_eq]

/-- The same edge is bound in both worlds, or refused in both. -/
theorem connect (h : w.Near hidden other) (key : PortKey) (edge? : Option EdgeId)
    (inputs : ∀ {name port edge}, (w.core.connect key edge?).2.port? (.input name) = some port →
      edge ∈ port.edges → ¬ hidden edge) :
    World.Near hidden ⟨(w.core.connect key edge?).2, w.edges⟩
      ⟨(other.core.connect key edge?).2, other.edges⟩ := by
  -- Refused in one world and bound in the other it cannot be: the results are the same.
  have hresult := h.connect_result key edge?
  rcases w.core.connect_cases key edge? with ⟨e, hw⟩ | ⟨edge, -, hedge, -, -, -, hw⟩ <;>
    rcases other.core.connect_cases key edge? with ⟨e', hother⟩ | ⟨edge', -, hedge', -, -, -, hother⟩ <;>
    rw [hw, hother] at hresult ⊢
  · exact h
  · exact nomatch hresult
  · exact nomatch hresult
  · obtain rfl := Option.some.inj (hedge.symm.trans hedge')
    rw [hw] at inputs
    exact h.bind key edge inputs

/-- What a task makes of near worlds, if its hook comes to the same in both. -/
theorem reach {σ α : Type} (h : w.Near hidden other) (task task' : Task σ α)
    (goal_eq : task.goal? = task'.goal?) (result : Except ProcessError α) :
    World.Near hidden { w with core := task.reach result w.core }
      { other with core := task'.reach result other.core } := by
  unfold Task.reach
  rw [← goal_eq]
  split
  · rename_i state _
    exact h.of_ports (congrArg (fun c : Core => { c with state }) h.core_eq) rfl rfl
  · exact h

theorem requiredHeads_eq (h : w.Near hidden other) : w.requiredHeads = other.requiredHeads := by
  have hsurvey := (Hook.run_near (Hook.plain_survey.mono fun _ => And.right) h).1
  rw [Hook.run_survey, Hook.run_survey] at hsurvey
  exact hsurvey

end World.Near

/-- Whether two tasks do the same, in worlds that are near. -/
structure Task.Near {σ α : Type} (hidden : EdgeId → Prop) (task : Task σ α) (edges : Edges)
    (task' : Task σ α) (edges' : Edges) : Prop where
  hook_eq : task.hook = task'.hook
  goal_eq : task.goal? = task'.goal?
  world : World.Near hidden ⟨task.core, edges⟩ ⟨task'.core, edges'⟩

namespace Task.Near

variable {σ α : Type} {hidden : EdgeId → Prop} {task task' : Task σ α} {edges edges' : Edges}

theorem dispatched (h : task.Near hidden edges task' edges')
    (blind : task.hook.AsksOnly Request.Blind) :
    List.Forall₂ (Dispatch.Spares hidden) (task'.hook.dispatched ⟨task'.core, edges'⟩)
      (task.hook.dispatched ⟨task.core, edges⟩) := by
  rw [← h.hook_eq]
  exact Hook.dispatched_near blind h.world

end Task.Near

/-! ## Commands -/

namespace Process

variable {σ : Type}

/-- What a command sends, from any output. -/
def dispatched (p : Process σ) (edges : Edges) (command : Command) : List Dispatch :=
  (p.task command).hook.dispatched ⟨(p.task command).core, edges⟩

/-- What a command puts on an edge. -/
def placed (p : Process σ) (edges : Edges) (command : Command) (edge : EdgeId) : List Stamped :=
  (p.task command).hook.placed ⟨(p.task command).core, edges⟩ edge

theorem placed_eq_dispatched (p : Process σ) (edges : Edges) (command : Command) (edge : EdgeId) :
    p.placed edges command edge = (p.dispatched edges command).flatMap (·.onto edge) :=
  Hook.placed_eq_dispatched _ _ _

/-- Whether two processes with one plugin are in near worlds, and remember the same. -/
structure Near (hidden : EdgeId → Prop) (p : Process σ) (edges : Edges) (q : Process σ)
    (edges' : Edges) : Prop where
  plugin_eq : p.plugin = q.plugin
  memory_eq : p.memory = q.memory
  world : (p.world edges).Near hidden (q.world edges')

namespace Near

variable {hidden : EdgeId → Prop} {p q : Process σ} {edges edges' : Edges}

theorem state_eq (h : Near hidden p edges q edges') : p.core.state = q.core.state :=
  h.world.view_eq Core.state fun _ => rfl

theorem name_eq (h : Near hidden p edges q edges') : p.core.name = q.core.name :=
  h.world.view_eq Core.name fun _ => rfl

theorem complete_eq (h : Near hidden p edges q edges') : p.core.complete = q.core.complete :=
  h.world.view_eq Core.complete fun _ => rfl

theorem level_eq (h : Near hidden p edges q edges') : p.core.level = q.core.level :=
  h.world.view_eq Core.level fun _ => rfl

theorem registry_eq (h : Near hidden p edges q edges') : p.core.registry = q.core.registry :=
  h.world.view_eq Core.registry fun _ => rfl

theorem checkProposal_eq (h : Near hidden p edges q edges') (key : PortKey) (proposed : DataType) :
    p.core.checkProposal key proposed = q.core.checkProposal key proposed :=
  h.world.view_eq (·.checkProposal key proposed) fun c => c.checkProposal_hushed key proposed

theorem properties_eq (h : Near hidden p edges q edges') : p.properties = q.properties := by
  unfold properties
  rw [h.plugin_eq, h.memory_eq, h.level_eq]

theorem rewind (h : Near hidden p edges q edges') : Near hidden p.rewind edges q.rewind edges' :=
  ⟨h.plugin_eq, h.memory_eq, h.world.rewound⟩

theorem retuned (h : Near hidden p edges q edges') (update : Config) :
    Near hidden (p.retuned update) edges (q.retuned update) edges' where
  plugin_eq := h.plugin_eq
  memory_eq := h.memory_eq
  world := h.world.of_ports
    (congrArg (fun c : Core => { c with registry := (c.registry.reconfigure update).2 })
      h.world.core_eq) rfl rfl

theorem round_eq (h : Near hidden p edges q edges') : p.round = q.round := by
  have hresponse : p.response = q.response := by
    funext heads verdict
    unfold response
    rw [h.plugin_eq, h.memory_eq]
  unfold round work turn
  rw [hresponse, h.complete_eq, h.memory_eq, h.level_eq, h.properties_eq]

theorem refusal {α : Type} (h : Near hidden p edges q edges') {e e' : ProcessError} (same : e = e') :
    Task.Near hidden (p.refusal e : Task σ α) edges (q.refusal e') edges' where
  hook_eq := by
    rw [Process.refusal, Process.refusal, h.memory_eq, same]
  goal_eq := rfl
  world := h.world

theorem task (h : Near hidden p edges q edges') (command : Command)
    (inputs : ∀ {name port edge}, (p.perform edges command).2.1.core.port? (.input name) = some port →
      edge ∈ port.edges → ¬ hidden edge) :
    (p.task command).Near hidden edges (q.task command) edges' := by
  have hname := h.name_eq
  -- Both processes are in one state, so that they refuse the command both, or neither.
  cases command with
  | configure =>
    unfold Process.task
    dsimp only
    rw [← h.state_eq, ← hname]
    split
    · exact ⟨by rw [h.plugin_eq, h.memory_eq], rfl, h.world⟩
    · exact h.refusal rfl
  | init =>
    unfold Process.task
    dsimp only
    rw [← h.state_eq, ← hname]
    split
    · exact h.refusal rfl
    · exact h.refusal rfl
    · exact ⟨by rw [h.plugin_eq, h.memory_eq], rfl, h.world⟩
  | reset => exact ⟨by rw [Process.task, Process.task, h.plugin_eq, h.memory_eq], rfl, h.rewind.world⟩
  | step =>
    unfold Process.task
    dsimp only
    rw [← h.state_eq, ← hname]
    split
    · exact ⟨h.round_eq, rfl, h.world⟩
    · exact h.refusal rfl
  | reconfigure update =>
    unfold Process.task
    dsimp only
    rw [← h.state_eq, ← hname]
    split
    · exact ⟨by rw [h.plugin_eq, h.memory_eq, h.registry_eq], rfl, (h.retuned update).world⟩
    · exact h.refusal rfl
  | connect key edge? =>
    have hresult : (p.core.connect key edge?).1 = (q.core.connect key edge?).1 :=
      h.world.connect_result key edge?
    exact ⟨by rw [Process.task, Process.task, hresult, h.memory_eq], rfl,
      h.world.connect key edge? inputs⟩
  | setType key proposed =>
    unfold Process.task
    dsimp only
    rw [← h.checkProposal_eq]
    split
    · exact h.refusal rfl
    · exact ⟨by rw [h.plugin_eq, h.memory_eq], rfl, h.world⟩

/-- A command comes to the same, and leaves the worlds as near as they were. -/
theorem perform (h : Near hidden p edges q edges') (blind : p.plugin.Blind) (command : Command)
    (inputs : ∀ {name port edge}, (p.perform edges command).2.1.core.port? (.input name) = some port →
      edge ∈ port.edges → ¬ hidden edge) :
    (p.perform edges command).1 = (q.perform edges' command).1 ∧
      Near hidden (p.perform edges command).2.1 (p.perform edges command).2.2
        (q.perform edges' command).2.1 (q.perform edges' command).2.2 := by
  have htask := h.task command inputs
  have hdoes := p.perform_task edges command
  have hdoes' := q.perform_task edges' command
  -- The tasks ask the same, so they come to the same; and what tasks come to, the commands do.
  obtain ⟨hran, hworld⟩ := Hook.run_near (blind_task blind command) htask.world
  rw [htask.hook_eq] at hran hworld
  have hresult := hdoes.result_eq
  have hmemory := hdoes.memory_eq
  have halike := hdoes.alike
  rw [htask.hook_eq, hran] at hresult hmemory halike
  refine ⟨hresult.trans hdoes'.result_eq.symm, ⟨?_, hmemory.trans hdoes'.memory_eq.symm, ?_⟩⟩
  · exact hdoes.plugin_eq.trans (h.plugin_eq.trans hdoes'.plugin_eq.symm)
  · exact (hworld.reach _ _ htask.goal_eq _).of_alike halike hdoes'.alike

end Near

end Process

end Dataflow
