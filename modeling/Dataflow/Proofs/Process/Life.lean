import Mathlib.Data.List.Chain
import Dataflow.Proofs.Process.Step

/-!
# The life of a process

The life of a process is the list of all worlds that it comes through: those in which its hooks find
themselves, before their first request and after every one, and those that its commands leave
behind. Others may use the edges between commands, so that every command finds edges of its own.
From one world of a life to the next the core makes one `Moved` step.
-/

namespace Dataflow

namespace Hook

/-- The worlds of a hook: the one in which it starts, and one for each of its requests. -/
def trail {α : Type} : Hook α → World → List World
  | done _, w => [w]
  | ask request next, w => w :: (next (w.perform request).1).trail (w.perform request).2

theorem head?_trail {α : Type} (h : Hook α) (w : World) : (h.trail w).head? = some w := by
  cases h <;> rfl

theorem getLast?_trail {α : Type} (h : Hook α) (w : World) :
    (h.trail w).getLast? = some (h.run w).2 := by
  induction h generalizing w with
  | done result => rfl
  | ask request next ih =>
    rw [trail, List.getLast?_cons, ih]
    rfl

/-- From one world of a hook to the next, a request has been done. -/
theorem isChain_trail {α : Type} (h : Hook α) (w : World) :
    (h.trail w).IsChain fun w after => w.core.Touched after.core := by
  induction h generalizing w with
  | done result => exact List.isChain_singleton w
  | ask request next ih =>
    refine List.isChain_cons.mpr ⟨fun after hafter => ?_, ih _ _⟩
    rw [head?_trail] at hafter
    exact Option.some.inj hafter ▸ w.perform_touched request

end Hook

namespace Core

/-- The core without edges, and initialized no more. -/
def rewound (c : Core) : Core :=
  if c.state = .initialized then { c.detachAll with state := .configured } else c.detachAll

theorem port?_rewound (c : Core) (key : PortKey) :
    c.rewound.port? key =
      (c.port? key).map fun port => { port with edges := [], stamp := .first } := by
  rw [rewound]
  split <;> exact Std.ExtTreeMap.getElem?_map

theorem rewound_state (c : Core) :
    c.rewound.state = if c.state = .initialized then .configured else c.state := by
  rw [rewound]
  split <;> rfl

/-- What may become of a core in one step of a life. Whether resets are among the steps is told
beforehand. -/
inductive Moved (resets : Prop) (c : Core) : Core → Prop where
  | touched {after : Core} (h : c.Touched after) : Moved resets c after
  | configured (created : c.state = .created) : Moved resets c { c with state := .configured }
  | initialized (configured : c.state = .configured) :
      Moved resets c { c with state := .initialized }
  | connected {key : PortKey} {port : Port} {edge : EdgeId} (configured : c.state = .configured)
      (declared : c.port? key = some port) (free : key.direction = .input → port.edges = []) :
      Moved resets c (c.modifyPort key fun port => { port with edges := port.edges ++ [edge] })
  | retuned {update : Config} (running : c.state = .initialized) :
      Moved resets c { c with registry := (c.registry.reconfigure update).2 }
  | faulted {complete : Bool} (running : c.state = .initialized) (incomplete : c.complete = false) :
      Moved resets c { c.advance fun _ => true with complete }
  | rewound (h : resets) : Moved resets c c.rewound

theorem Moved.mono {resets resets' : Prop} (himp : resets → resets') {c after : Core}
    (h : c.Moved resets after) : c.Moved resets' after := by
  cases h with
  | touched h => exact .touched h
  | configured created => exact .configured created
  | initialized configured => exact .initialized configured
  | connected configured declared free => exact .connected configured declared free
  | retuned running => exact .retuned running
  | faulted running incomplete => exact .faulted running incomplete
  | rewound h => exact .rewound (himp h)

theorem Moved.same {resets : Prop} {c : Core} : c.Moved resets c := .touched .same

theorem Moved.of_eq {resets : Prop} {c after : Core} (h : c = after) : c.Moved resets after :=
  h ▸ .same

theorem connect_moved {resets : Prop} (c : Core) (key : PortKey) (edge? : Option EdgeId) :
    c.Moved resets (c.connect key edge?).2 := by
  rcases c.connect_cases key edge? with ⟨e, h⟩ | ⟨edge, port, -, configured, declared, free, h⟩
  · rw [h]
    exact .same
  · rw [h]
    exact .connected configured declared free

end Core

/-- Worlds of which each comes from the one before it by a move of its core. -/
abbrev Unbroken (resets : Prop) (worlds : List World) : Prop :=
  worlds.IsChain fun w after => w.core.Moved resets after.core

namespace Unbroken

theorem mono {resets resets' : Prop} {worlds : List World} (h : Unbroken resets worlds)
    (himp : resets → resets') : Unbroken resets' worlds :=
  h.imp fun _ _ => .mono himp

theorem moved {resets : Prop} {worlds : List World} (h : Unbroken resets worlds) {i : Nat}
    {w after : World} (hw : worlds[i]? = some w) (hafter : worlds[i + 1]? = some after) :
    w.core.Moved resets after.core := by
  obtain ⟨hi, rfl⟩ := List.getElem?_eq_some_iff.mp hw
  obtain ⟨hnext, rfl⟩ := List.getElem?_eq_some_iff.mp hafter
  exact List.isChain_iff_getElem.mp h i hnext

/-- Between two worlds there are all the worlds between. -/
theorem mid {worlds : List World} {j : Nat} {after : World} (hafter : worlds[j + 1]? = some after) :
    ∃ w, worlds[j]? = some w := by
  obtain ⟨hj, -⟩ := List.getElem?_eq_some_iff.mp hafter
  exact ⟨worlds[j], List.getElem?_eq_getElem (Nat.lt_of_succ_lt hj)⟩

/-- What every move keeps, holds from its first world on. -/
theorem keeps {P : Core → Prop} {resets : Prop} {worlds : List World} (h : Unbroken resets worlds)
    (keeps : ∀ c after : Core, c.Moved resets after → P c → P after) {i j : Nat} (hij : i ≤ j)
    {w after : World} (hw : worlds[i]? = some w) (hafter : worlds[j]? = some after)
    (hP : P w.core) : P after.core := by
  induction j, hij using Nat.le_induction generalizing after with
  | base => exact Option.some.inj (hw.symm.trans hafter) ▸ hP
  | succ j hij ih =>
    obtain ⟨mid, hmid⟩ := mid hafter
    exact keeps _ _ (h.moved hmid hafter) (ih hmid)

end Unbroken

namespace Hook

theorem run_state {α : Type} (h : Hook α) (w : World) : (h.run w).2.core.state = w.core.state :=
  run_keeps (fun _ _ touched hstate => touched.state_eq.trans hstate) h w rfl

/-- The worlds of a hook come between the one before it and the one behind it. -/
theorem unbroken_between {α : Type} {resets : Prop} (h : Hook α) {first w last : World}
    (hfirst : first.core.Moved resets w.core) (hlast : (h.run w).2.core.Moved resets last.core) :
    Unbroken resets (first :: (h.trail w ++ [last])) := by
  refine List.isChain_cons.mpr ⟨fun after hafter => ?_, List.isChain_append.mpr ⟨?_, ?_, ?_⟩⟩
  · rw [List.head?_append, head?_trail] at hafter
    exact Option.some.inj hafter ▸ hfirst
  · exact (h.isChain_trail w).imp fun _ _ touched => .touched touched
  · exact List.isChain_singleton last
  · intro before hbefore after hafter
    rw [getLast?_trail] at hbefore
    rw [← Option.some.inj hbefore, ← Option.some.inj hafter]
    exact hlast

end Hook

namespace Process

variable {σ : Type}

/-- The worlds of a hook of a process. -/
def trail {α : Type} (p : Process σ) (edges : Edges) (hook : Reaction σ α) : List World :=
  (hook p.memory).trail (p.world edges)

/-- The process with an update of its keys, before its hook sees it. -/
def retuned (p : Process σ) (update : Config) : Process σ :=
  { p with core := { p.core with registry := (p.core.registry.reconfigure update).2 } }

/-- The worlds of the hook that a command runs. There are none if it runs no hook. -/
def passage (p : Process σ) (edges : Edges) : Command → List World
  | .configure => if p.core.state = .created then p.trail edges p.plugin.configure else []
  | .init => if p.core.state = .configured then p.trail edges p.plugin.init else []
  | .reset => p.rewind.trail edges p.plugin.reset
  | .step =>
    if p.core.state = .initialized ∧ p.core.complete = false ∧ p.judge edges = .step then
      p.trail edges p.plugin.step
    else []
  | .reconfigure update =>
    if p.core.state = .initialized then
      (p.retuned update).trail edges (p.plugin.reconfigure update)
    else []
  | .connect _ _ => []
  | .setType key proposed =>
    match p.core.checkProposal key proposed with
    | .ok () => p.trail edges (p.plugin.proposeType key proposed)
    | .error _ => []

/-- The world that a command leaves behind. -/
def behind (p : Process σ) (edges : Edges) (command : Command) : World :=
  (p.perform edges command).2.1.world (p.perform edges command).2.2

/-- The worlds that a process comes through as it is given commands, one after the other. Every
command finds the edges as others left them. -/
def course (p : Process σ) : List (Edges × Command) → List World
  | [] => []
  | (edges, command) :: rest =>
    p.passage edges command ++ p.behind edges command ::
      (p.perform edges command).2.1.course rest

/-- The process after some commands. -/
def follow (p : Process σ) : List (Edges × Command) → Process σ
  | [] => p
  | (edges, command) :: rest => (p.perform edges command).2.1.follow rest

/-- The worlds that a process comes through from its first hook on. A process that could not be made
is given no commands. -/
def life (config : Config) (plugin : Plugin σ) (memory : σ) (edges : Edges)
    (commands : List (Edges × Command)) : List World :=
  trail ⟨.ofConfig config, plugin, memory⟩ edges plugin.declare ++
    match create config plugin memory edges with
    | (.ok (), p, _) => p.course commands
    | (.error _, _, _) => []

/-- The world in which a hook of a process ends. -/
def ending {α : Type} (p : Process σ) (edges : Edges) (hook : Reaction σ α) : World :=
  (Hook.run (hook p.memory) (p.world edges)).2

theorem react_world {α : Type} (p : Process σ) (edges : Edges) (hook : Reaction σ α) :
    (p.react edges hook).2.1.world (p.react edges hook).2.2 = p.ending edges hook := rfl

theorem advance_world (p : Process σ) (edges : Edges) (hook : Reaction σ Unit) (state : State) :
    (p.advance edges hook state).2.1.world (p.advance edges hook state).2.2 =
      match (p.react edges hook).1 with
      | .error _ => p.ending edges hook
      | .ok () => { p.ending edges hook with core := { (p.ending edges hook).core with state } } := by
  rw [← react_world, advance]
  obtain ⟨result, after⟩ := p.react edges hook
  cases result <;> rfl

/-- What shows neither stamps nor the mark of completion, a step changes by its hook alone. -/
theorem step_view {β : Type} (view : Core → β) (hadvance : ∀ c which, view (c.advance which) = view c)
    (hcomplete : ∀ c complete, view { c with complete } = view c) (p : Process σ) (edges : Edges) :
    view (p.step edges).2.1.core =
      if p.core.state = .initialized ∧ p.core.complete = false ∧ p.judge edges = .step then
        view (p.ending edges p.plugin.step).core
      else view p.core := by
  by_cases running : p.core.state = .initialized
  · by_cases complete : p.core.complete = true
    · rw [if_neg (fun h => nomatch h.2.1.symm.trans complete), step, if_pos running, if_pos complete]
      exact (congrArg view (World.beat_core _)).trans (hadvance _ _)
    · have incomplete := Bool.eq_false_iff.mpr complete
      by_cases hjudge : p.judge edges = .step
      · rw [if_pos ⟨running, incomplete, hjudge⟩, step_of_act running incomplete, act, hjudge]
        rw [← congrArg World.core (p.react_world edges p.plugin.step)]
        dsimp only
        obtain ⟨result, after⟩ := p.react edges p.plugin.step
        cases result with
        | error e => rfl
        | ok _ => exact (congrArg view (World.beat_core _)).trans (hadvance _ _)
      · obtain ⟨datum, complete, hfault⟩ := Verdict.fault?_of_ne_step hjudge
        have hcore := (p.world edges).send_beat_core complete datum (p.world edges).requiredHeads
        rw [if_neg (fun h => hjudge h.2.2), step_of_fault running incomplete hfault]
        exact (congrArg view hcore).trans ((hcomplete _ _).trans (hadvance _ _))
  · rw [if_neg (fun h => running h.1), step, if_neg running]

theorem passed_configure (p : Process σ) (edges : Edges) {first : World}
    (hfirst : first.core = p.core) :
    Unbroken False (first :: (p.passage edges .configure ++ [p.behind edges .configure])) := by
  rw [passage, behind, perform, configure]
  split
  · rename_i created
    refine (p.plugin.configure p.memory).unbroken_between (.of_eq hfirst) ?_
    rw [advance_world]
    cases (p.react edges p.plugin.configure).1 with
    | error e => exact .same
    | ok _ => exact .configured ((Hook.run_state _ _).trans created)
  · exact List.isChain_pair.mpr (.of_eq hfirst)

theorem passed_init (p : Process σ) (edges : Edges) {first : World} (hfirst : first.core = p.core) :
    Unbroken False (first :: (p.passage edges .init ++ [p.behind edges .init])) := by
  rw [passage, behind, perform, init]
  split
  · rename_i configured
    simp only [configured]
    refine (p.plugin.init p.memory).unbroken_between (.of_eq hfirst) ?_
    rw [advance_world]
    cases (p.react edges p.plugin.init).1 with
    | error e => exact .same
    | ok _ => exact .initialized ((Hook.run_state _ _).trans configured)
  · rename_i other
    cases hstate : p.core.state with
    | configured => exact absurd hstate other
    | created => exact List.isChain_pair.mpr (.of_eq hfirst)
    | initialized => exact List.isChain_pair.mpr (.of_eq hfirst)

theorem passed_reset (p : Process σ) (edges : Edges) {first : World} (hfirst : first.core = p.core) :
    Unbroken True (first :: (p.passage edges .reset ++ [p.behind edges .reset])) := by
  rw [passage, behind, perform, reset, react_world]
  refine (p.plugin.reset p.memory).unbroken_between ?_ .same
  rw [hfirst]
  exact .rewound trivial

theorem step_moved {p : Process σ} {edges : Edges} (running : p.core.state = .initialized)
    (incomplete : p.core.complete = false) (h : p.judge edges ≠ .step) :
    p.core.Moved False (p.behind edges .step).core := by
  obtain ⟨datum, complete, hfault⟩ := Verdict.fault?_of_ne_step h
  have hcore := (p.world edges).send_beat_core complete datum (p.world edges).requiredHeads
  -- Whatever the fault is, it is sent and reported in one move.
  have hmoved : p.core.Moved False { p.core.advance fun _ => true with complete } :=
    .faulted running incomplete
  rw [behind, perform, step_of_fault running incomplete hfault]
  exact hcore ▸ hmoved

theorem passed_step (p : Process σ) (edges : Edges) {first : World} (hfirst : first.core = p.core) :
    Unbroken False (first :: (p.passage edges .step ++ [p.behind edges .step])) := by
  rw [passage]
  split
  · rename_i h
    obtain ⟨running, incomplete, hjudge⟩ := h
    refine (p.plugin.step p.memory).unbroken_between (.of_eq hfirst) ?_
    have hact : p.act edges = p.react edges p.plugin.step := by
      rw [act, hjudge]
    rw [behind, perform, step_of_act running incomplete, hact]
    change (p.ending edges p.plugin.step).core.Moved False _
    rw [← react_world]
    obtain ⟨result, after⟩ := p.react edges p.plugin.step
    cases result with
    | error e => exact .same
    | ok _ => exact World.beat_core _ ▸ .touched .sent
  · rename_i h
    refine List.isChain_pair.mpr (hfirst ▸ ?_)
    by_cases running : p.core.state = .initialized
    · by_cases complete : p.core.complete = true
      · rw [behind, perform, step, if_pos running, if_pos complete]
        exact World.beat_core _ ▸ .touched .sent
      · have incomplete := Bool.eq_false_iff.mpr complete
        exact step_moved running incomplete fun hjudge => h ⟨running, incomplete, hjudge⟩
    · rw [behind, perform, step, if_neg running]
      exact .same

theorem reconfigure_after {p : Process σ} {edges : Edges} {update : Config}
    (running : p.core.state = .initialized) :
    (p.reconfigure edges update).2 =
      ((p.retuned update).react edges (p.plugin.reconfigure update)).2 := by
  rw [reconfigure, if_pos running, retuned]
  obtain ⟨changed, registry⟩ := p.core.registry.reconfigure update
  dsimp only
  split
  · rename_i hreact
    rw [hreact]
  · rename_i hreact
    rw [hreact]

theorem passed_reconfigure (p : Process σ) (edges : Edges) (update : Config) {first : World}
    (hfirst : first.core = p.core) :
    Unbroken False
      (first :: (p.passage edges (.reconfigure update) ++ [p.behind edges (.reconfigure update)])) := by
  rw [passage]
  split
  · rename_i running
    refine (p.plugin.reconfigure update p.memory).unbroken_between ?_ ?_
    · rw [hfirst]
      exact .retuned running
    · rw [behind, perform, reconfigure_after running]
      exact .same
  · rename_i early
    rw [behind, perform, reconfigure, if_neg early]
    exact List.isChain_pair.mpr (.of_eq hfirst)

theorem passed_connect (p : Process σ) (edges : Edges) (key : PortKey) (edge? : Option EdgeId)
    {first : World} (hfirst : first.core = p.core) :
    Unbroken False
      (first :: (p.passage edges (.connect key edge?) ++ [p.behind edges (.connect key edge?)])) := by
  refine List.isChain_pair.mpr ?_
  rw [hfirst]
  exact p.core.connect_moved key edge?

theorem passed_setType (p : Process σ) (edges : Edges) (key : PortKey) (proposed : DataType)
    {first : World} (hfirst : first.core = p.core) :
    Unbroken False
      (first :: (p.passage edges (.setType key proposed) ++ [p.behind edges (.setType key proposed)])) := by
  rw [passage, behind, perform, setType]
  cases p.core.checkProposal key proposed with
  | error e => exact List.isChain_pair.mpr (.of_eq hfirst)
  | ok _ => exact (p.plugin.proposeType key proposed p.memory).unbroken_between (.of_eq hfirst) .same

/-- The worlds of a command follow each other by moves, and no command but a reset rewinds. -/
theorem passed (p : Process σ) (edges : Edges) (command : Command) {first : World}
    (hfirst : first.core = p.core) :
    Unbroken (command = .reset) (first :: (p.passage edges command ++ [p.behind edges command])) := by
  cases command with
  | reset => exact (p.passed_reset edges hfirst).mono fun _ => rfl
  | configure => exact (p.passed_configure edges hfirst).mono False.elim
  | init => exact (p.passed_init edges hfirst).mono False.elim
  | step => exact (p.passed_step edges hfirst).mono False.elim
  | reconfigure update =>
    exact (p.passed_reconfigure edges update hfirst).mono False.elim
  | connect key edge? =>
    exact (p.passed_connect edges key edge? hfirst).mono False.elim
  | setType key proposed =>
    exact (p.passed_setType edges key proposed hfirst).mono False.elim

theorem unbroken_course (p : Process σ) (commands : List (Edges × Command)) {first : World}
    (hfirst : first.core = p.core) :
    Unbroken (∃ given ∈ commands, given.2 = .reset) (first :: p.course commands) := by
  induction commands generalizing p first with
  | nil => exact List.isChain_singleton first
  | cons given rest ih =>
    obtain ⟨edges, command⟩ := given
    have hhere := p.passed edges command hfirst
    have hbehind : (p.behind edges command).core = (p.perform edges command).2.1.core := rfl
    have hrest := ih (p.perform edges command).2.1 hbehind
    -- What a command leaves behind is where the rest of the course begins.
    rw [course, ← List.cons_append]
    refine List.isChain_split.mpr ⟨?_, ?_⟩
    · exact hhere.mono fun h => ⟨_, List.mem_cons_self, h⟩
    · exact hrest.mono fun ⟨given, hgiven, h⟩ => ⟨given, List.mem_cons_of_mem _ hgiven, h⟩

theorem create_fst (config : Config) (plugin : Plugin σ) (memory : σ) (edges : Edges) :
    (create config plugin memory edges).1 =
      ((plugin.declare memory).run ⟨.ofConfig config, edges⟩).1.1 := rfl

theorem create_core (config : Config) (plugin : Plugin σ) (memory : σ) (edges : Edges) :
    (create config plugin memory edges).2.1.core =
      ((plugin.declare memory).run ⟨.ofConfig config, edges⟩).2.core := rfl

theorem create_plugin (config : Config) (plugin : Plugin σ) (memory : σ) (edges : Edges) :
    (create config plugin memory edges).2.1.plugin = plugin := rfl

theorem first_of_life (config : Config) (plugin : Plugin σ) (memory : σ) (edges : Edges)
    (commands : List (Edges × Command)) :
    (life config plugin memory edges commands)[0]? = some ⟨.ofConfig config, edges⟩ := by
  rw [← List.head?_eq_getElem?, life, trail, List.head?_append, Hook.head?_trail]
  rfl

/-- The worlds of a life follow each other by moves. -/
theorem unbroken_life (config : Config) (plugin : Plugin σ) (memory : σ) (edges : Edges)
    (commands : List (Edges × Command)) :
    Unbroken True (life config plugin memory edges commands) := by
  have hdeclare := (plugin.declare memory).isChain_trail ⟨.ofConfig config, edges⟩
  have hlast := (plugin.declare memory).getLast?_trail ⟨.ofConfig config, edges⟩
  have hcreate := create_core config plugin memory edges
  rw [life]
  generalize create config plugin memory edges = created at hcreate ⊢
  obtain ⟨result, p, after⟩ := created
  cases result with
  | error e =>
    rw [List.append_nil]
    exact hdeclare.imp fun _ _ touched => .touched touched
  | ok _ =>
    have hcourse := List.isChain_cons.mp (p.unbroken_course commands hcreate.symm)
    refine List.isChain_append.mpr ⟨hdeclare.imp fun _ _ touched => .touched touched,
      hcourse.2.imp fun _ _ => .mono fun _ => trivial, fun last h next hnext => ?_⟩
    obtain rfl := Option.some.inj (hlast.symm.trans h)
    exact (hcourse.1 next hnext).mono fun _ => trivial

/-- What a first command leaves behind is in the life of the process that was made. -/
theorem behind_mem_life {config : Config} {plugin : Plugin σ} {memory : σ} {edges after : Edges}
    {p : Process σ} (made : create config plugin memory edges = (.ok (), p, after)) (given : Edges)
    (command : Command) (rest : List (Edges × Command)) :
    p.behind given command ∈ life config plugin memory edges ((given, command) :: rest) := by
  rw [life, made]
  exact List.mem_append_right _ (List.mem_append_right _ List.mem_cons_self)

/-- What holds of a new core and is kept by every move, holds in all worlds of a life. -/
theorem life_keeps {P : Core → Prop} {config : Config} {plugin : Plugin σ} {memory : σ}
    {edges : Edges} {commands : List (Edges × Command)} (first : P (.ofConfig config))
    (keeps : ∀ c after : Core, c.Moved True after → P c → P after) {w : World}
    (hw : w ∈ life config plugin memory edges commands) : P w.core := by
  obtain ⟨i, hi⟩ := List.getElem?_of_mem hw
  have hfirst := first_of_life config plugin memory edges commands
  exact (unbroken_life config plugin memory edges commands).keeps keeps (Nat.zero_le i) hfirst hi first

end Process

end Dataflow
