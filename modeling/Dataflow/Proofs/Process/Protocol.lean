import Dataflow.Proofs.Process.Watch

/-!
# The protocol of a process

Each hook has its turn in the life of a process, and is run in its turn only. Commands that come out
of turn are refused: they run no hook and change nothing. The state is moved on by commands alone,
from created to configured to initialized, and only a reset takes it back, to where edges are bound.
`life_protocol` says this of all that can happen to a process from its making on.
-/

namespace Dataflow

/-- The turn that a command is for. An edge is bound without a hook. -/
def Command.turn? : Command → Option Turn
  | configure => some .configure
  | init => some .init
  | reset => some .reset
  | step => some .step
  | reconfigure update => some (.reconfigure update)
  | connect _ _ => none
  | setType key proposed => some (.proposeType key proposed)

/-- The state that a command leaves behind, by the state it finds and by whether it succeeds. -/
def Command.stateAfter (command : Command) (state : State) (succeeded : Bool) : State :=
  match command, state, succeeded with
  | configure, .created, true => .configured
  | init, .configured, true => .initialized
  | reset, .initialized, _ => .configured
  | _, state, _ => state

theorem Command.stateAfter_eq_created {command : Command} {state : State} {succeeded : Bool}
    (h : command.stateAfter state succeeded = .created) : state = .created := by
  cases command <;> cases state <;> cases succeeded <;> first | rfl | exact nomatch h

namespace Sight

/-- Whether a port is among those that a hook sees. -/
def Declares (s : Sight) (key : PortKey) : Prop :=
  match key.direction with
  | .input => key.name ∈ s.inputs.map Prod.fst
  | .output => key.name ∈ s.outputs.map Prod.fst

/-- Whether no edge is bound, and no stamp is on its way. -/
def Bare (s : Sight) : Prop :=
  (∀ input ∈ s.inputs, input.2 = false) ∧
    ∀ output ∈ s.outputs, output.2.1 = 0 ∧ output.2.2 = .first

end Sight

/-- Whether a hook was run in its turn. -/
def Call.InTurn (call : Call) : Prop :=
  match call.turn with
  | .declare | .configure => call.before.state = .created
  | .init => call.before.state = .configured
  | .step => call.before.state = .initialized ∧ call.before.complete = false
  | .reset => call.before.state ≠ .initialized ∧ call.before.Bare
  | .reconfigure _ => call.before.state = .initialized
  | .proposeType key _ => call.before.state ≠ .initialized ∧ call.before.Declares key

namespace World

theorem declares_of_port {w : World} {key : PortKey} {port : Port}
    (h : w.core.port? key = some port) : w.sight.Declares key := by
  obtain ⟨direction, name⟩ := key
  have hname : name ∈ w.core.portNames direction := Core.mem_portNames.mpr ⟨port, h⟩
  cases direction <;> simpa [Sight.Declares, sight, List.map_map, Function.comp_def] using hname

theorem bare_of_ports {w : World}
    (h : ∀ key port, w.core.port? key = some port → port.edges = [] ∧ port.stamp = .first) :
    w.sight.Bare := by
  have hbound (key : PortKey) : w.boundTo key = [] := by
    unfold boundTo
    cases hport : w.core.port? key with
    | none => rfl
    | some port => exact (h key port hport).1
  have hstamp (name : String) : w.nextStamp name = .first := by
    unfold nextStamp
    cases hport : w.core.port? (.output name) with
    | none => rfl
    | some port => exact (h _ port hport).2
  constructor
  · intro input hinput
    obtain ⟨name, -, rfl⟩ := List.mem_map.mp hinput
    rw [hbound]
    rfl
  · intro output houtput
    obtain ⟨name, -, rfl⟩ := List.mem_map.mp houtput
    exact ⟨congrArg List.length (hbound _), hstamp name⟩

theorem perform_state (w : World) (r : Request) : (w.perform r).2.core.state = w.core.state :=
  (w.perform_touched r).state_eq

end World

namespace Core

theorem connect_state (c : Core) (key : PortKey) (edge? : Option EdgeId) :
    (c.connect key edge?).2.state = c.state := by
  rcases c.connect_cases key edge? with ⟨e, h⟩ | ⟨edge, port, -, -, -, -, h⟩
  · rw [h]
  · rw [h]
    rfl

end Core

namespace Process

variable {σ : Type}

/-- Whether a command comes out of turn. -/
def Refuses (p : Process σ) : Command → Prop
  | .configure => p.core.state ≠ .created
  | .init => p.core.state ≠ .configured
  | .reset => False
  | .step | .reconfigure _ => p.core.state ≠ .initialized
  | .connect key edge? =>
    edge? = none ∨ p.core.state ≠ .configured ∨
      ∀ port, p.core.port? key = some port → key.direction = .input ∧ port.edges ≠ []
  | .setType key proposed =>
    p.core.state = .initialized ∨
      ∀ port, p.core.port? key = some port →
        (port.declared.isConcrete = true ∨ port.declared = .none) ∧ port.info.type ≠ proposed

/-- What the protocol says of a command that runs these hooks. -/
structure Lawful (p : Process σ) (edges : Edges) (command : Command) (calls : List Call) : Prop where
  logged : ∀ log, (p.watched log).perform edges command =
    logged (p.perform edges command) (log ++ calls)
  state_eq : (p.perform edges command).2.1.core.state =
    command.stateAfter p.core.state (p.perform edges command).1.isOk
  inTurn : ∀ call ∈ calls, call.InTurn
  steady : ∀ call ∈ calls, call.after.state = call.before.state
  answered : ∀ call ∈ calls, command.turn? = some call.turn ∧
    (p.perform edges command).1.isOk = call.succeeded
  refused : p.Refuses command →
    calls = [] ∧ ∃ e, p.perform edges command = (.error e, p, edges)
  called : ¬ p.Refuses command →
    calls.map Call.turn = command.turn?.toList ∨ command = .step ∧ calls = []

theorem call_steady {α : Type} (p : Process σ) (edges : Edges) (turn : Turn) (hook : Reaction σ α) :
    (p.call edges turn hook).after.state = (p.call edges turn hook).before.state :=
  Hook.run_state _ _

/-- A command that runs one hook is lawful if the hook is in its turn and decides the answer. -/
theorem lawful_call {α : Type} {p q : Process σ} {edges : Edges} {command : Command} {turn : Turn}
    {hook : Reaction σ α} (hcalls : p.calls edges command = [q.call edges turn hook])
    (hstate : (p.perform edges command).2.1.core.state =
      command.stateAfter p.core.state (p.perform edges command).1.isOk)
    (inTurn : (q.call edges turn hook).InTurn) (hturn : command.turn? = some turn)
    (hanswer : (p.perform edges command).1.isOk = (q.react edges hook).1.isOk)
    (accepted : ¬ p.Refuses command) : p.Lawful edges command (p.calls edges command) where
  logged := p.perform_watched edges command
  state_eq := hstate
  inTurn := by
    rw [hcalls]
    exact List.forall_mem_singleton.mpr inTurn
  steady := by
    rw [hcalls]
    exact List.forall_mem_singleton.mpr (q.call_steady edges turn hook)
  answered := by
    rw [hcalls]
    exact List.forall_mem_singleton.mpr ⟨hturn, hanswer⟩
  refused h := absurd h accepted
  called _ := by
    rw [hcalls, hturn]
    exact .inl rfl

/-- A command that runs no hook is lawful if it leaves the state as it should. -/
theorem lawful_quiet {p : Process σ} {edges : Edges} {command : Command}
    (hcalls : p.calls edges command = [])
    (hstate : (p.perform edges command).2.1.core.state =
      command.stateAfter p.core.state (p.perform edges command).1.isOk)
    (refused : p.Refuses command → ∃ e, p.perform edges command = (.error e, p, edges))
    (accepted : ¬ p.Refuses command → command = .step ∨ command.turn? = none) :
    p.Lawful edges command (p.calls edges command) where
  logged := p.perform_watched edges command
  state_eq := hstate
  inTurn := by simp [hcalls]
  steady := by simp [hcalls]
  answered := by simp [hcalls]
  refused h := ⟨hcalls, refused h⟩
  called h := by
    rw [hcalls]
    rcases accepted h with hstep | hnone
    · exact .inr ⟨hstep, rfl⟩
    · rw [hnone]
      exact .inl rfl

/-- A command that is refused is lawful: nothing else happens. -/
theorem lawful_refused {p : Process σ} {edges : Edges} {command : Command} {e : ProcessError}
    (hcalls : p.calls edges command = [])
    (hperform : p.perform edges command = (.error e, p, edges))
    (hstate : command.stateAfter p.core.state false = p.core.state) (refuses : p.Refuses command) :
    p.Lawful edges command (p.calls edges command) := by
  refine lawful_quiet hcalls ?_ (fun _ => ⟨e, hperform⟩) (absurd refuses)
  rw [hperform]
  exact hstate.symm

theorem react_state {α : Type} (p : Process σ) (edges : Edges) (hook : Reaction σ α) :
    (p.react edges hook).2.1.core.state = p.core.state := Hook.run_state _ _

theorem advance_isOk (p : Process σ) (edges : Edges) (hook : Reaction σ Unit) (state : State) :
    (p.advance edges hook state).1.isOk = (p.react edges hook).1.isOk := by
  rw [advance]
  obtain ⟨result, after⟩ := p.react edges hook
  cases result <;> rfl

theorem advance_state (p : Process σ) (edges : Edges) (hook : Reaction σ Unit) (state : State) :
    (p.advance edges hook state).2.1.core.state =
      if (p.advance edges hook state).1.isOk = true then state else p.core.state := by
  have hreact := p.react_state edges hook
  rw [advance]
  generalize p.react edges hook = reacted at hreact ⊢
  obtain ⟨result, after⟩ := reacted
  cases result with
  | error e => exact hreact
  | ok _ => rfl

theorem lawful_configure (p : Process σ) (edges : Edges) :
    p.Lawful edges .configure (p.calls edges .configure) := by
  by_cases created : p.core.state = .created
  · have hperform : p.perform edges .configure =
        p.advance edges p.plugin.configure .configured := if_pos created
    have hstate := p.advance_state edges p.plugin.configure .configured
    refine lawful_call (if_pos created) ?_ created rfl ?_ (absurd created)
    · rw [hperform, hstate, created]
      cases (p.advance edges p.plugin.configure .configured).1.isOk <;> rfl
    · rw [hperform, advance_isOk]
  · refine lawful_refused (if_neg created) (if_neg created) ?_ created
    cases p.core.state <;> rfl

theorem lawful_init (p : Process σ) (edges : Edges) :
    p.Lawful edges .init (p.calls edges .init) := by
  by_cases configured : p.core.state = .configured
  · have hperform : p.perform edges .init = p.advance edges p.plugin.init .initialized := by
      change p.init edges = _
      rw [init, configured]
    have hstate := p.advance_state edges p.plugin.init .initialized
    refine lawful_call (if_pos configured) ?_ configured rfl ?_ (absurd configured)
    · rw [hperform, hstate, configured]
      cases (p.advance edges p.plugin.init .initialized).1.isOk <;> rfl
    · rw [hperform, advance_isOk]
  · have hperform : ∃ e, p.perform edges .init = (.error e, p, edges) := by
      change ∃ e, p.init edges = _
      rw [init]
      cases hstate : p.core.state with
      | configured => exact absurd hstate configured
      | created => exact ⟨_, rfl⟩
      | initialized => exact ⟨_, rfl⟩
    obtain ⟨e, hperform⟩ := hperform
    refine lawful_refused (if_neg configured) hperform ?_ configured
    cases p.core.state <;> rfl

theorem port?_rewind (p : Process σ) (key : PortKey) :
    p.rewind.core.port? key =
      (p.core.port? key).map fun port => { port with edges := [], stamp := .first } :=
  p.core.port?_rewound key

theorem rewind_port (p : Process σ) {key : PortKey} {port : Port}
    (h : p.rewind.core.port? key = some port) : port.edges = [] ∧ port.stamp = .first := by
  rw [port?_rewind] at h
  obtain ⟨before, -, rfl⟩ := Option.map_eq_some_iff.mp h
  exact ⟨rfl, rfl⟩

theorem rewind_state (p : Process σ) :
    p.rewind.core.state =
      if p.core.state = .initialized then .configured else p.core.state :=
  p.core.rewound_state

theorem lawful_reset (p : Process σ) (edges : Edges) :
    p.Lawful edges .reset (p.calls edges .reset) := by
  have hrewind := p.rewind_state
  -- The hook finds the process rewound already, which is why its failure does not matter.
  refine lawful_call rfl ?_ ⟨?_, ?_⟩ rfl rfl not_false
  · change (p.rewind.react edges p.plugin.reset).2.1.core.state = _
    rw [react_state, hrewind]
    cases p.core.state <;> cases (p.perform edges .reset).1.isOk <;> rfl
  · change p.rewind.core.state ≠ .initialized
    rw [hrewind]
    split
    · decide
    · assumption
  · exact World.bare_of_ports fun key port => p.rewind_port

theorem step_state (p : Process σ) (edges : Edges) :
    (p.step edges).2.1.core.state = p.core.state := by
  rw [p.step_view Core.state (fun _ _ => rfl) (fun _ _ => rfl) edges]
  split
  · exact Hook.run_state _ _
  · rfl

theorem lawful_step (p : Process σ) (edges : Edges) :
    p.Lawful edges .step (p.calls edges .step) := by
  have hstate : (p.perform edges .step).2.1.core.state =
      Command.step.stateAfter p.core.state (p.perform edges .step).1.isOk := p.step_state edges
  by_cases running : p.core.state = .initialized
  · by_cases h : p.core.state = .initialized ∧ p.core.complete = false ∧ p.judge edges = .step
    · have ⟨_, incomplete, hjudge⟩ := h
      refine lawful_call (if_pos h) hstate ⟨running, incomplete⟩ rfl ?_ (absurd running)
      change (p.step edges).1.isOk = _
      rw [step_of_act running incomplete, act, hjudge]
      dsimp only
      obtain ⟨result, after⟩ := p.react edges p.plugin.step
      cases result <;> rfl
    · -- A step that is complete or finds fault is not refused, but it runs no hook either.
      exact lawful_quiet (if_neg h) hstate (absurd running) fun _ => .inl rfl
  · refine lawful_refused (if_neg fun h => running h.1) (if_neg running) ?_ running
    cases p.core.state <;> rfl

theorem lawful_reconfigure (p : Process σ) (edges : Edges) (update : Config) :
    p.Lawful edges (.reconfigure update) (p.calls edges (.reconfigure update)) := by
  by_cases running : p.core.state = .initialized
  · refine lawful_call (q := p.retuned update) (if_pos running) ?_ running rfl ?_ (absurd running)
    · change (p.reconfigure edges update).2.1.core.state = p.core.state
      rw [reconfigure_after running, react_state]
      rfl
    · change (p.reconfigure edges update).1.isOk = _
      rw [reconfigure_of_running running]
      obtain ⟨result, after⟩ := (p.retuned update).react edges (p.plugin.reconfigure update)
      cases result <;> rfl
  · refine lawful_refused (if_neg running) (if_neg running) ?_ running
    cases p.core.state <;> rfl

theorem connect_refused {c : Core} {key : PortKey} {edge? : Option EdgeId}
    (h : edge? = none ∨ c.state ≠ .configured ∨
      ∀ port, c.port? key = some port → key.direction = .input ∧ port.edges ≠ []) :
    ∃ e, c.connect key edge? = (.error e, c) := by
  unfold Core.connect
  cases edge? with
  | none => exact ⟨_, rfl⟩
  | some edge =>
    dsimp only
    cases hstate : c.state with
    | created => exact ⟨_, rfl⟩
    | initialized => exact ⟨_, rfl⟩
    | configured =>
      have htaken := (h.resolve_left nofun).resolve_left (absurd hstate)
      cases hport : c.port? key with
      | none => exact ⟨_, rfl⟩
      | some port => exact ⟨_, if_pos (htaken port hport)⟩

theorem lawful_connect (p : Process σ) (edges : Edges) (key : PortKey) (edge? : Option EdgeId) :
    p.Lawful edges (.connect key edge?) (p.calls edges (.connect key edge?)) := by
  refine lawful_quiet rfl (p.core.connect_state key edge?) (fun h => ?_) fun _ => .inr rfl
  obtain ⟨e, hrefused⟩ := connect_refused h
  refine ⟨e, ?_⟩
  change p.connect edges key edge? = _
  rw [connect, hrefused]

theorem checkProposal_eq_error {c : Core} {key : PortKey} {proposed : DataType} :
    (∃ e, c.checkProposal key proposed = .error e) ↔
      c.state = .initialized ∨ ∀ port, c.port? key = some port →
        (port.declared.isConcrete = true ∨ port.declared = .none) ∧ port.info.type ≠ proposed := by
  rw [Core.checkProposal]
  by_cases running : c.state = .initialized
  · rw [if_pos running]
    exact ⟨fun _ => .inl running, fun _ => ⟨_, rfl⟩⟩
  · rw [if_neg running, or_iff_right running]
    cases c.port? key with
    | none =>
      refine ⟨fun _ port h => ?_, fun _ => ⟨_, rfl⟩⟩
      contradiction
    | some port =>
      dsimp only
      by_cases fixed : (port.declared.isConcrete = true ∨ port.declared = .none) ∧
        port.info.type ≠ proposed
      · rw [if_pos fixed]
        exact ⟨fun _ port' h => Option.some.inj h ▸ fixed, fun _ => ⟨_, rfl⟩⟩
      · rw [if_neg fixed]
        refine ⟨fun h => ?_, fun h => absurd (h port rfl) fixed⟩
        obtain ⟨e, h⟩ := h
        contradiction

theorem lawful_setType (p : Process σ) (edges : Edges) (key : PortKey) (proposed : DataType) :
    p.Lawful edges (.setType key proposed) (p.calls edges (.setType key proposed)) := by
  cases hcheck : p.core.checkProposal key proposed with
  | error e =>
    have hcalls : p.calls edges (.setType key proposed) = [] := by
      rw [calls, hcheck]
    have hperform : p.perform edges (.setType key proposed) = (.error e, p, edges) := by
      change p.setType edges key proposed = _
      rw [setType, hcheck]
    refine lawful_refused hcalls hperform ?_ (checkProposal_eq_error.mp ⟨e, hcheck⟩)
    cases p.core.state <;> rfl
  | ok _ =>
    have accepted : ¬ p.Refuses (.setType key proposed) := fun h => by
      obtain ⟨e, herror⟩ := checkProposal_eq_error.mpr h
      have hclash := hcheck.symm.trans herror
      contradiction
    have hperform : p.perform edges (.setType key proposed) =
        p.react edges (p.plugin.proposeType key proposed) := by
      change p.setType edges key proposed = _
      rw [setType, hcheck]
    obtain ⟨early, hdeclared⟩ := not_or.mp accepted
    obtain ⟨port, hport⟩ := not_forall.mp hdeclared
    have hcalls : p.calls edges (.setType key proposed) =
        [p.call edges (.proposeType key proposed) (p.plugin.proposeType key proposed)] := by
      rw [calls, hcheck]
    refine lawful_call hcalls ?_ ⟨early, ?_⟩ rfl ?_ accepted
    · rw [hperform, react_state]
      cases p.core.state <;> rfl
    · exact World.declares_of_port (Classical.not_imp.mp hport).1
    · rw [hperform]

/-- Every command is lawful, whatever the hooks of the plugin do. -/
theorem lawful (p : Process σ) (edges : Edges) (command : Command) :
    p.Lawful edges command (p.calls edges command) := by
  cases command with
  | configure => exact p.lawful_configure edges
  | init => exact p.lawful_init edges
  | reset => exact p.lawful_reset edges
  | step => exact p.lawful_step edges
  | reconfigure update => exact p.lawful_reconfigure edges update
  | connect key edge? => exact p.lawful_connect edges key edge?
  | setType key proposed => exact p.lawful_setType edges key proposed

/-! ## Whole lives -/

/-- The log of a whole course holds hooks in their turn only. -/
theorem follow_watched (p : Process σ) (commands : List (Edges × Command)) (log : List Call) :
    ∃ more, (p.watched log).follow commands = (p.follow commands).watched (log ++ more) ∧
      ∀ call ∈ more, call.InTurn ∧ call.after.state = call.before.state := by
  induction commands generalizing p log with
  | nil =>
    refine ⟨[], ?_, fun call hcall => absurd hcall List.not_mem_nil⟩
    rw [List.append_nil]
    rfl
  | cons given rest ih =>
    obtain ⟨edges, command⟩ := given
    have hlawful := p.lawful edges command
    obtain ⟨more, hrest, hmore⟩ :=
      ih (p.perform edges command).2.1 (log ++ p.calls edges command)
    refine ⟨p.calls edges command ++ more, ?_, fun call hcall => ?_⟩
    · rw [follow, perform_watched, ← List.append_assoc]
      exact hrest
    · rcases List.mem_append.mp hcall with hhere | hlater
      · exact ⟨hlawful.inTurn call hhere, hlawful.steady call hhere⟩
      · exact hmore call hlater

theorem created_of_follow {p : Process σ} {commands : List (Edges × Command)}
    (h : (p.follow commands).core.state = .created) : p.core.state = .created := by
  induction commands generalizing p with
  | nil => exact h
  | cons given rest ih =>
    have hnext := ih h
    rw [(p.lawful given.1 given.2).state_eq] at hnext
    exact Command.stateAfter_eq_created hnext

theorem ofConfig_state (config : Config) : (Core.ofConfig config).state = .created := by
  have hname := (Core.declareKey_touched (.bare config) Config.nameKey Core.nameInfo).state_eq
  have htype := (Core.declareKey_touched _ Config.typeKey Core.typeInfo).state_eq.trans hname
  exact (Core.declare_touched _ _ _).state_eq.trans htype

/-- Whatever its hooks do, a process goes through its life by the protocol: from its making on, all
hooks are run in their turn, and after any commands the next one is lawful, too. No process is
created again, and no request of a hook moves the state. -/
theorem life_protocol (config : Config) (plugin : Plugin σ) (memory : σ) (edges : Edges)
    (commands : List (Edges × Command)) :
    let made := create config plugin memory edges
    ∃ first log, first.turn = .declare ∧
      create config plugin.watched (memory, []) edges = logged made [first] ∧
      (made.2.1.watched [first]).follow commands =
        (made.2.1.follow commands).watched (first :: log) ∧
      (∀ call ∈ first :: log, call.InTurn ∧ call.after.state = call.before.state) ∧
      made.2.1.core.state = .created ∧
      (∀ later, ((made.2.1.follow commands).follow later).core.state = .created →
        (made.2.1.follow commands).core.state = .created) ∧
      (∀ now command, ∃ calls, (made.2.1.follow commands).Lawful now command calls) ∧
      ∀ (w : World) (r : Request), (w.perform r).2.core.state = w.core.state := by
  intro made
  let bare : Process σ := ⟨.ofConfig config, plugin, memory⟩
  let first := bare.call edges .declare plugin.declare
  obtain ⟨log, hfollow, hlog⟩ := made.2.1.follow_watched commands [first]
  have hfirst : first.InTurn := ofConfig_state config
  have hsteady : first.after.state = first.before.state :=
    bare.call_steady edges .declare plugin.declare
  have hcreated : made.2.1.core.state = .created :=
    (bare.react_state edges plugin.declare).trans (ofConfig_state config)
  refine ⟨first, log, rfl, bare.react_watched edges .declare plugin.declare [], hfollow, ?_, hcreated,
    fun later => created_of_follow, fun now command => ⟨_, lawful _ now command⟩,
    World.perform_state⟩
  exact List.forall_mem_cons.mpr ⟨⟨hfirst, hsteady⟩, hlog⟩

/-- A plugin whose reset fails. -/
def stubborn : Plugin Unit := { Plugin.idle Unit with reset := throw (.plugin "no" []) }

/-- A process with the plugin that has been stepped. -/
def stepped : Process Unit :=
  (create ∅ stubborn () .empty).2.1.follow [(.empty, .configure), (.empty, .init), (.empty, .step)]

/-- The reset runs its hook in a bare process, and takes the state back although the hook fails. -/
theorem life_protocol_stubborn :
    stepped.core.state = .initialized ∧
      ∃ call : Call, (∀ log, (stepped.watched log).perform .empty .reset =
          logged (stepped.perform .empty .reset) (log ++ [call])) ∧
        call.turn = .reset ∧ call.succeeded = false ∧ call.before.state ≠ .initialized ∧
        call.before.Bare ∧ (stepped.perform .empty .reset).2.1.core.state = .configured := by
  have hstate : stepped.core.state = .initialized := by
    decide +kernel
  have hfailed : (stepped.perform .empty .reset).1.isOk = false := by
    decide +kernel
  obtain ⟨-, -, -, -, -, -, -, -, hlawful, -⟩ :=
    life_protocol ∅ stubborn () .empty [(.empty, .configure), (.empty, .init), (.empty, .step)]
  obtain ⟨calls, hreset⟩ : ∃ calls, stepped.Lawful .empty .reset calls := hlawful .empty .reset
  have hturns := (hreset.called not_false).resolve_right nofun
  obtain ⟨call, rfl, hturn⟩ := List.map_eq_singleton_iff.mp hturns
  have hmem : call ∈ [call] := List.mem_singleton_self call
  have hbefore := hreset.inTurn call hmem
  rw [Call.InTurn, hturn] at hbefore
  refine ⟨hstate, call, hreset.logged, hturn, (hreset.answered call hmem).2.symm.trans hfailed,
    hbefore.1, hbefore.2, ?_⟩
  have hafter : (stepped.perform .empty .reset).2.1.core.state =
      Command.reset.stateAfter stepped.core.state _ := hreset.state_eq
  rw [hafter, hstate]
  rfl

end Process

end Dataflow
