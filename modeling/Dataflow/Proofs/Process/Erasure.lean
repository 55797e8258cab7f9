import Dataflow.Proofs.Process.Heartbeat

/-!
# A reset erases a run

A process that is wired, initialized and stepped changes its core where a reset looks: the edges,
the stamps, the mark of completion and the state. All the rest is for declarations, levels and
types, and a plugin whose hooks ask for none of these finds itself, behind a reset, where it was
before the wiring. The thread through the run is the core as a reset would leave it.
-/

namespace Dataflow

/-- Whether a request moves data, looks at something, or marks the process complete. -/
def Request.Modest : Request → Prop
  | .declare _ _ | .remove _ | .setFrequency _ _ | .declareKey _ _ | .setLevel _ | .resolve _ _ => False
  | .name | .typeName | .state | .isComplete | .level | .portNames _ | .config | .debug | .info _
  | .hasEdge _ | .countEdges _ | .nextStamp _ | .value _ _ | .peek _ _ | .grab _ | .grabAs _ _
  | .grabInput _ _ | .markComplete | .push _ _ => True

/-- Whether a command wires the process or runs it. -/
def Command.Runs : Command → Prop
  | .connect _ _ | .init | .step => True
  | .configure | .reset | .reconfigure _ | .setType _ _ => False

namespace Core

/-! ## What a reset cannot tell apart -/

theorem rewound_eq (c : Core) :
    c.rewound = { c with
      state := if c.state = .initialized then .configured else c.state
      complete := false
      ports := c.ports.map fun _ port => { port with edges := [], stamp := .first } } := by
  rw [rewound]
  split <;> rfl

/-- A reset forgets the mark, the edges and the stamps, and whether the core is initialized. -/
theorem rewound_of_view {c after : Core}
    (rest : { after with state := c.state, complete := c.complete, ports := c.ports } = c)
    (state_eq : after.state = c.state ∨ c.state = .configured ∧ after.state = .initialized)
    (view_eq : ∀ key, (after.port? key).map (fun port => (port.declared, port.info)) =
      (c.port? key).map fun port => (port.declared, port.info)) :
    after.rewound = c.rewound := by
  have hstate : (if after.state = .initialized then .configured else after.state) =
      if c.state = .initialized then .configured else c.state := by
    rcases state_eq with same | ⟨configured, running⟩
    · rw [same]
    · rw [configured, running]
      rfl
  have hports : after.ports.map (fun _ port => { port with edges := [], stamp := .first }) =
      c.ports.map fun _ port => { port with edges := [], stamp := .first } := by
    apply Std.ExtTreeMap.ext_getElem?
    intro key
    have hview := congrArg (Option.map fun view : DataType × PortInfo =>
      (⟨view.1, view.2, [], .first⟩ : Port)) (view_eq key)
    simp only [Option.map_map, Function.comp_def] at hview
    rw [Std.ExtTreeMap.getElem?_map, Std.ExtTreeMap.getElem?_map]
    exact hview
  rw [rewound_eq, rewound_eq, hstate, hports]
  generalize c.ports.map _ = ports
  generalize (if c.state = .initialized then State.configured else c.state) = state
  exact congrArg (fun core : Core => { core with state, complete := false, ports }) rest

theorem rewound_advance (c : Core) (which : String → Bool) : (c.advance which).rewound = c.rewound :=
  rewound_of_view rfl (.inl rfl) (c.view_advance (fun _ _ => rfl) which)

theorem rewound_completed (c : Core) (complete : Bool) : { c with complete }.rewound = c.rewound :=
  rewound_of_view rfl (.inl rfl) fun _ => rfl

theorem rewound_initialized {c : Core} (configured : c.state = .configured) :
    { c with state := .initialized }.rewound = c.rewound :=
  rewound_of_view rfl (.inr ⟨configured, rfl⟩) fun _ => rfl

theorem rewound_connect (c : Core) (key : PortKey) (edge? : Option EdgeId) :
    (c.connect key edge?).2.rewound = c.rewound := by
  rcases c.connect_cases key edge? with ⟨e, h⟩ | ⟨edge, port, -, -, -, -, h⟩
  · rw [h]
  · rw [h]
    refine rewound_of_view rfl (.inl rfl) (c.view_modifyPort (fun _ => ?_) key)
    rfl

/-- A core with nothing to forget is as a reset leaves it. -/
theorem rewound_of_fresh {c : Core} (configured : c.state = .configured) (incomplete : c.complete = false)
    (fresh : ∀ key port, c.port? key = some port → port.edges = [] ∧ port.stamp = .first) :
    c.rewound = c := by
  have hstate : ¬ c.state = .initialized := by
    rw [configured]
    decide
  have hports : c.ports.map (fun _ port => { port with edges := [], stamp := .first }) = c.ports := by
    apply Std.ExtTreeMap.ext_getElem?
    intro key
    rw [Std.ExtTreeMap.getElem?_map]
    cases hport : c.ports[key]? with
    | none => rfl
    | some port =>
      obtain ⟨hedges, hstamp⟩ := fresh key port hport
      rw [Option.map_some, ← hedges, ← hstamp]
  rw [rewound_eq, if_neg hstate, hports, ← incomplete]

end Core

/-! ## Hooks -/

theorem World.perform_rewound (w : World) {r : Request} (modest : r.Modest) :
    (w.perform r).2.core.rewound = w.core.rewound := by
  cases r with
  | declare _ _ | remove _ | setFrequency _ _ | declareKey _ _ | setLevel _ | resolve _ _ =>
    exact modest.elim
  | markComplete => exact w.core.rewound_completed true
  | push port datum =>
    change (w.push port datum).2.core.rewound = _
    rw [push_core, Core.rewound_advance]
  | grab port => exact congrArg Core.rewound (w.grab_core port)
  | grabAs port kind => exact congrArg Core.rewound (w.grabAs_core port kind)
  | grabInput port kind => exact congrArg Core.rewound (w.grabInput_core port kind)
  | name | typeName | state | isComplete | level | portNames _ | config | debug | info _
  | hasEdge _ | countEdges _ | nextStamp _ | value _ _ | peek _ _ => rfl

theorem Hook.AsksOnly.run_rewound {α : Type} {h : Hook α} (modest : h.AsksOnly Request.Modest)
    (w : World) : (h.run w).2.core.rewound = w.core.rewound := by
  induction h generalizing w with
  | done result => rfl
  | ask r next ih => exact (ih _ (modest.2 _) _).trans (w.perform_rewound modest.1)

namespace Process

variable {σ : Type}

/-- Whether the hooks of a run ask for nothing that outlives a reset. -/
structure Modest (plugin : Plugin σ) : Prop where
  init : ∀ memory, (plugin.init memory).AsksOnly Request.Modest
  step : ∀ memory, (plugin.step memory).AsksOnly Request.Modest

/-! ## Commands -/

theorem init_rewound {p : Process σ} (modest : Modest p.plugin) (edges : Edges) :
    (p.init edges).2.1.core.rewound = p.core.rewound := by
  have hhook : (p.ending edges p.plugin.init).core.rewound = p.core.rewound :=
    (modest.init p.memory).run_rewound (p.world edges)
  unfold init
  cases configured : p.core.state with
  | created | initialized => rfl
  | configured =>
    have hworld := congrArg World.core (p.advance_world edges p.plugin.init .initialized)
    have hstate := (Hook.run_state (p.plugin.init p.memory) (p.world edges)).trans configured
    change (p.advance edges p.plugin.init .initialized).2.1.core.rewound = _
    rw [show (p.advance edges p.plugin.init .initialized).2.1.core = _ from hworld]
    cases (p.react edges p.plugin.init).1 with
    | error e => exact hhook
    | ok _ => exact (Core.rewound_initialized hstate).trans hhook

theorem step_rewound {p : Process σ} (modest : Modest p.plugin) (edges : Edges) :
    (p.step edges).2.1.core.rewound = p.core.rewound := by
  rw [step_view Core.rewound Core.rewound_advance Core.rewound_completed p edges]
  split
  · exact (modest.step p.memory).run_rewound (p.world edges)
  · rfl

theorem perform_rewound {p : Process σ} (modest : Modest p.plugin) (edges : Edges)
    {command : Command} (runs : command.Runs) :
    (p.perform edges command).2.1.core.rewound = p.core.rewound := by
  cases command with
  | connect key edge? => exact p.core.rewound_connect key edge?
  | init => exact init_rewound modest edges
  | step => exact step_rewound modest edges
  | configure | reset | reconfigure _ | setType _ _ => exact runs.elim

theorem follow_rewound {p : Process σ} (modest : Modest p.plugin)
    {commands : List (Edges × Command)} (runs : ∀ given ∈ commands, given.2.Runs) :
    (p.follow commands).core.rewound = p.core.rewound ∧ (p.follow commands).plugin = p.plugin := by
  induction commands generalizing p with
  | nil => exact ⟨rfl, rfl⟩
  | cons given rest ih =>
    obtain ⟨edges, command⟩ := given
    obtain ⟨hhere, hlater⟩ := List.forall_mem_cons.mp runs
    have hplugin := p.perform_plugin edges command
    obtain ⟨hrewound, hsame⟩ := ih (hplugin ▸ modest) hlater
    exact ⟨hrewound.trans (perform_rewound modest edges hhere), hsame.trans hplugin⟩

/-- A process that is configured, bare and not complete is wired and run by any commands, which may
fail, and then reset. The reset hook finds the very core that the process had before: state, mark,
level, keys, ports and groups. So if the hook leaves the core alone, that is what the reset leaves
behind, whether the hook fails or not. -/
theorem reset_erases (p : Process σ) (configured : p.core.state = .configured)
    (incomplete : p.core.complete = false)
    (fresh : ∀ key port, p.core.port? key = some port → port.edges = [] ∧ port.stamp = .first)
    (modest : Modest p.plugin) {commands : List (Edges × Command)}
    (runs : ∀ given ∈ commands, given.2.Runs) (edges : Edges) :
    let q := p.follow commands
    q.perform edges .reset = { q with core := p.core }.react edges p.plugin.reset ∧
      (q.passage edges .reset).head? = some ⟨p.core, edges⟩ ∧
      ((∀ memory w, ((p.plugin.reset memory).run w).2.core = w.core) →
        (q.perform edges .reset).2.1.core = p.core) := by
  intro q
  obtain ⟨hrewound, hplugin⟩ : q.core.rewound = p.core.rewound ∧ q.plugin = p.plugin :=
    follow_rewound modest runs
  have hcore : q.rewind.core = p.core :=
    hrewound.trans (Core.rewound_of_fresh configured incomplete fresh)
  have hrewind : q.rewind = { q with core := p.core } := by
    rw [← hcore]
    rfl
  have hreset : q.perform edges .reset = { q with core := p.core }.react edges p.plugin.reset := by
    rw [← hrewind, ← hplugin]
    rfl
  refine ⟨hreset, ?_, fun leaves => ?_⟩
  · rw [passage, trail, Hook.head?_trail, world, hcore]
  · rw [hreset]
    exact leaves _ _

/-- A plugin that announces its end in its first step. Its reset forgets the steps, and fails. -/
def herald : Plugin Nat :=
  { Plugin.idle Nat with
    declare := Reaction.request (.declare (.output "out") ⟨.any, .empty, "", .one⟩)
    step := fun count =>
      .ask (.push "out" .complete) fun _ => .ask .markComplete fun _ => .done (.ok (), count + 1)
    reset := fun _ => .done (.error (.plugin "no" []), 0) }

/-- A process with the plugin, configured. -/
def heralding : Process Nat :=
  (create ∅ herald 0 .empty).2.1.follow [(.empty, .configure)]

/-- A run of it, with an edge that comes too late. -/
def announcement : List (Edges × Command) :=
  [(.empty, .connect (.output "out") (some ⟨0⟩)), (.empty, .init), (.empty, .step), (.empty, .step),
    (.empty, .connect (.output "out") (some ⟨1⟩))]

/-- The run leaves the process complete, and the failing reset leaves it as it was. -/
theorem reset_erases_heralding :
    heralding.core.state = .configured ∧ heralding.core.complete = false ∧
      (∀ key port, heralding.core.port? key = some port → port.edges = [] ∧ port.stamp = .first) ∧
      Modest heralding.plugin ∧ (∀ given ∈ announcement, given.2.Runs) ∧
      (heralding.follow announcement).core.complete = true ∧
      ((heralding.follow announcement).perform .empty .reset).2.1.core = heralding.core := by
  have configured : heralding.core.state = .configured := by
    decide +kernel
  have incomplete : heralding.core.complete = false := by
    decide +kernel
  have hports : ∀ entry ∈ heralding.core.ports.toList,
      entry.2.edges = [] ∧ entry.2.stamp = .first := by
    decide +kernel
  have modest : Modest heralding.plugin :=
    ⟨fun _ => trivial, fun _ => ⟨trivial, fun _ => ⟨trivial, fun _ => trivial⟩⟩⟩
  have runs : ∀ given ∈ announcement, given.2.Runs := by
    simp [announcement, Command.Runs]
  have complete : (heralding.follow announcement).core.complete = true := by
    decide +kernel
  obtain ⟨-, -, herased⟩ := reset_erases heralding configured incomplete
    (fun key port hport => hports _ (Core.mem_ports hport)) modest runs .empty
  exact ⟨configured, incomplete, fun key port hport => hports _ (Core.mem_ports hport), modest, runs,
    complete, herased fun _ _ => rfl⟩

end Process

end Dataflow
