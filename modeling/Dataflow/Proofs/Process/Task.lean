import Dataflow.Proofs.Core.Traffic
import Dataflow.Proofs.Process.Watch

/-!
# Commands, request by request

What a process does to its edges it does by requests, on its own as in its hooks. A command is told
here as a program of requests, so that others may be thought to come between any two of them. If
nobody does, the program does what the command does: `perform_task` says so.
-/

namespace Dataflow

namespace World

def headOf? (w : World) (name : String) : Option Head :=
  (w.core.port? (.input name)).bind fun port =>
    if port.info.flags.required = true then
      port.edges.head?.map fun edge => ⟨name, port.info.frequency, w.edges.peek? edge 0⟩
    else none

theorem requiredHeads_eq (w : World) :
    w.requiredHeads = (w.core.portNames .input).filterMap w.headOf? := by
  have hkeys : w.core.ports.keys = w.core.ports.toList.map Prod.fst :=
    Std.ExtTreeMap.map_fst_toList_eq_keys.symm
  rw [Core.portNames, hkeys, List.filterMap_map, List.filterMap_filterMap, requiredHeads]
  apply List.filterMap_congr
  rintro ⟨key, port⟩ hmem
  have hport : w.core.ports[key]? = some port :=
    Std.ExtTreeMap.mem_toList_iff_getElem?_eq_some.mp hmem
  obtain ⟨direction, name⟩ := key
  cases direction with
  | output => simp
  | input =>
    have hdeclared : w.core.port? (.input name) = some port := hport
    simp [headOf?, hdeclared]

end World

namespace Hook

/-- Look at the head of an input, if it is required and bound. -/
def head? (name : String) : Hook (Option Head) :=
  ask (.info (.input name)) fun
    | .error _ => done none
    | .ok info =>
      if info.flags.required = true then
        ask (.hasEdge name) fun
          | .ok true =>
            ask (.peek name 0) fun
              | .ok token? => done (some ⟨name, info.frequency, token?⟩)
              | .error _ => done none
          | _ => done none
      else done none

def heads : List String → Hook (List Head)
  | [] => done []
  | name :: rest => (head? name).bind fun head? => (heads rest).bind fun heads =>
      done (head?.toList ++ heads)

/-- Look at the heads of the bound required inputs. -/
def survey : Hook (List Head) :=
  ask (.portNames .input) fun
    | .ok names => heads names
    | .error _ => done []

def sendEach (datum : Datum) : List String → Hook Unit
  | [] => done ()
  | name :: rest => ask (.push name datum) fun _ => sendEach datum rest

/-- Send a datum from every output but the heartbeat. -/
def sendToAll (datum : Datum) : Hook Unit :=
  ask (.portNames .output) fun
    | .ok names => sendEach datum (names.filter (· ≠ Core.heartbeat))
    | .error _ => done ()

/-- Take up to so many data from an input. -/
def drain (name : String) : Nat → Hook Unit
  | 0 => done ()
  | count + 1 =>
    ask (.grab name) fun
      | .ok (some _) => drain name count
      | _ => done ()

/-- Take from every input what one step would take from it. -/
def drainStep : List Head → Hook Unit
  | [] => done ()
  | head :: rest => (drain head.port head.frequency.tokensPerStep).bind fun _ => drainStep rest

/-- Send a datum in place of results. -/
def fault (datum : Datum) (heads : List Head) : Hook Unit :=
  (sendToAll datum).bind fun _ => drainStep heads

/-- Report a step on the heartbeat. -/
def beat : Hook Unit :=
  ask .isComplete fun
    | .ok complete => ask (.push Core.heartbeat (heartbeatDatum complete)) fun _ => done ()
    | .error _ => done ()

end Hook

/-! ## What the programs do -/

/-- Whether two worlds differ at most in how an empty queue is stored. -/
structure World.Alike (w other : World) : Prop where
  core_eq : w.core = other.core
  queue_eq : ∀ edge, w.edges.queue edge = other.edges.queue edge
  fresh_eq : w.edges.fresh = other.edges.fresh

namespace World

theorem Alike.refl (w : World) : w.Alike w := ⟨rfl, fun _ => rfl, rfl⟩

theorem Alike.trans {w mid other : World} (h : w.Alike mid) (h' : mid.Alike other) : w.Alike other :=
  ⟨h.core_eq.trans h'.core_eq, fun edge => (h.queue_eq edge).trans (h'.queue_eq edge),
    h.fresh_eq.trans h'.fresh_eq⟩

theorem Alike.beat {w other : World} (h : w.Alike other) : w.beat.Alike other.beat where
  core_eq := by
    rw [beat_core, beat_core, h.core_eq]
  queue_eq edge := by
    rw [beat_queue, beat_queue, h.core_eq, h.queue_eq]
  fresh_eq := by
    rw [beat_fresh, beat_fresh, h.fresh_eq]

theorem Alike.drain {w other : World} (h : w.Alike other) (name : String) (count : Nat) :
    (w.drain name count).Alike (other.drain name count) := by
  have hbound : w.inputEdge? name = other.inputEdge? name := by
    rw [inputEdge?, inputEdge?, h.core_eq]
  refine ⟨?_, fun edge => ?_, ?_⟩
  · rw [drain_core, drain_core, h.core_eq]
  · rw [drain_queue, drain_queue, h.queue_eq, hbound]
  · rw [drain_fresh, drain_fresh, h.fresh_eq]

theorem Alike.drainStep {w other : World} (h : w.Alike other) (heads : List Head) :
    (w.drainStep heads).Alike (other.drainStep heads) := by
  induction heads generalizing w other with
  | nil => exact h
  | cons head rest ih => exact ih (h.drain head.port head.frequency.tokensPerStep)

theorem grab_of_unbound {w : World} {name : String} (h : w.inputEdge? name = none) :
    ∃ e, w.grab name = (.error e, w) := by
  unfold grab
  cases hport : w.core.port? (.input name) with
  | none => exact ⟨_, rfl⟩
  | some port =>
    cases hedges : port.edges with
    | nil =>
      dsimp only
      rw [hedges]
      exact ⟨_, rfl⟩
    | cons edge rest =>
      rw [inputEdge?, hport, Option.bind_some, hedges] at h
      exact absurd h (Option.some_ne_none edge)

theorem grab_of_bound {w : World} {name : String} {edge : EdgeId}
    (h : w.inputEdge? name = some edge) :
    w.grab name = (.ok (w.edges.pop edge).1, { w with edges := (w.edges.pop edge).2 }) := by
  obtain ⟨port, hport, hedge⟩ := Option.bind_eq_some_iff.mp h
  obtain ⟨rest, hedges⟩ := List.head?_eq_some_iff.mp hedge
  unfold grab
  rw [hport]
  dsimp only
  rw [hedges]

end World

namespace Hook

theorem run_head? (name : String) (w : World) : (head? name).run w = (w.headOf? name, w) := by
  unfold head? World.headOf?
  cases hport : w.core.port? (.input name) with
  | none => simp [World.perform, Core.info, hport]
  | some port =>
    by_cases hrequired : port.info.flags.required = true
    · cases hedges : port.edges with
      | nil => simp [World.perform, Core.info, Core.edgeCount, hport, hrequired, hedges]
      | cons edge rest =>
        simp [World.perform, Core.info, Core.edgeCount, World.peek, hport, hrequired, hedges]
    · simp [World.perform, Core.info, hport, hrequired]

theorem run_heads (names : List String) (w : World) :
    (heads names).run w = (names.filterMap w.headOf?, w) := by
  induction names with
  | nil => rfl
  | cons name rest ih =>
    rw [heads, run_bind, run_head?, run_bind, ih, List.filterMap_cons]
    cases w.headOf? name <;> rfl

theorem run_survey (w : World) : survey.run w = (w.requiredHeads, w) := by
  rw [World.requiredHeads_eq, ← run_heads]
  rfl

theorem run_sendEach (datum : Datum) (names : List String) (w : World) :
    (sendEach datum names).run w = ((), w.pushEach names datum) := by
  induction names generalizing w with
  | nil => rfl
  | cons name rest ih => exact ih (w.push name datum).2

theorem run_sendToAll (datum : Datum) (w : World) :
    (sendToAll datum).run w = ((), w.pushToAll datum) :=
  run_sendEach datum w.outlets w

theorem run_drain (name : String) (count : Nat) (w : World) :
    ((drain name count).run w).2.Alike (w.drain name count) := by
  induction count generalizing w with
  | zero =>
    refine ⟨(w.drain_core name 0).symm, fun edge => ?_, (w.drain_fresh name 0).symm⟩
    rw [World.drain_queue, ite_self, List.drop_zero]
    rfl
  | succ count ih =>
    cases hbound : w.inputEdge? name with
    | none =>
      -- Without an edge the first request fails, and that is the end of it.
      obtain ⟨e, hgrab⟩ := World.grab_of_unbound hbound
      rw [drain, run_ask, World.perform, hgrab, World.drain, hbound]
      exact .refl w
    | some bound =>
      have hgrab := World.grab_of_bound hbound
      rw [drain, run_ask, World.perform, hgrab, Edges.pop]
      cases hqueue : w.edges.queue bound with
      | nil =>
        -- Here the queues agree, but a pop stores the empty one anew.
        refine ⟨(w.drain_core name _).symm, fun edge => ?_, (w.drain_fresh name _).symm⟩
        rw [World.drain_queue, hbound]
        by_cases hedge : bound = edge
        · subst hedge
          simp [hqueue]
        · simp [hedge]
      | cons token rest =>
        have hrest := ih { w with edges := w.edges.setQueue bound rest }
        have hbound' : ({ w with edges := w.edges.setQueue bound rest } : World).inputEdge? name =
          some bound := hbound
        refine ⟨hrest.core_eq.trans ?_, fun edge => (hrest.queue_eq edge).trans ?_,
          hrest.fresh_eq.trans ?_⟩
        · rw [World.drain_core, World.drain_core]
        · rw [World.drain_queue, World.drain_queue, hbound, hbound']
          by_cases hedge : bound = edge
          · subst hedge
            simp [hqueue]
          · simp [hedge, Ne.symm hedge]
        · rw [World.drain_fresh, World.drain_fresh]
          rfl

theorem run_drainStep (heads : List Head) (w : World) :
    ((drainStep heads).run w).2.Alike (w.drainStep heads) := by
  induction heads generalizing w with
  | nil => exact .refl w
  | cons head rest ih =>
    -- The drains behind the first one do alike in worlds that are alike.
    rw [drainStep, run_bind]
    have hfirst := run_drain head.port head.frequency.tokensPerStep w
    exact (ih _).trans (hfirst.drainStep rest)

theorem run_fault (datum : Datum) (heads : List Head) (w : World) :
    ((fault datum heads).run w).2.Alike (Fault.send w datum heads) := by
  rw [fault, run_bind, run_sendToAll]
  exact run_drainStep heads (w.pushToAll datum)

end Hook

/-! ## Commands -/

/-- A command under way: the core as it begins, what is asked of it, and the state that it goes over
to if nothing fails. -/
structure Task (σ α : Type) where
  core : Core
  hook : Hook (Except ProcessError α × σ)
  goal? : Option State

/-- The core behind a task. -/
def Task.reach {σ α : Type} (task : Task σ α) (result : Except ProcessError α) (core : Core) : Core :=
  match result, task.goal? with
  | .ok _, some state => { core with state }
  | _, _ => core

theorem Task.reach_none {σ α : Type} (task : Task σ α) (h : task.goal? = none)
    (result : Except ProcessError α) (core : Core) : task.reach result core = core := by
  unfold Task.reach
  rw [h]
  cases result <;> rfl

namespace Process

variable {σ : Type}

/-- What a step does once there is a verdict on the heads. -/
def response (p : Process σ) (heads : List Head) : Verdict → Hook (Except ProcessError Unit × σ)
  | .step => p.plugin.step p.memory
  | .desync => (Hook.fault Fault.desync heads).bind fun _ => .done (.ok (), p.memory)
  | .propagate status =>
    if status = .complete then
      (Hook.ask .markComplete fun _ => Hook.fault (Fault.ofStatus status) heads).bind fun _ =>
        .done (.ok (), p.memory)
    else (Hook.fault (Fault.ofStatus status) heads).bind fun _ => .done (.ok (), p.memory)

/-- What a step does before its report, if the process is not complete. -/
def turn (p : Process σ) : Hook (Except ProcessError Unit × σ) :=
  Hook.survey.bind fun heads =>
    p.response heads (verdict p.core.level (!p.properties.contains .unsyncInput) heads)

/-- Report a step that has not failed. -/
def report : Except ProcessError Unit × σ → Hook (Except ProcessError Unit × σ)
  | (.error e, memory) => .done (.error e, memory)
  | (.ok (), memory) => Hook.beat.bind fun _ => .done (.ok (), memory)

def work (p : Process σ) : Hook (Except ProcessError Unit × σ) :=
  if p.core.complete then .done (.ok (), p.memory) else p.turn

def round (p : Process σ) : Hook (Except ProcessError Unit × σ) := p.work.bind report

def refusal {α : Type} (p : Process σ) (e : ProcessError) : Task σ α :=
  ⟨p.core, .done (.error e, p.memory), none⟩

/-- What a command does, as a task. -/
def task (p : Process σ) : (command : Command) → Task σ command.Reply
  | .configure =>
    if p.core.state = .created then ⟨p.core, p.plugin.configure p.memory, some .configured⟩
    else p.refusal (.alreadyConfigured p.core.name)
  | .init =>
    match p.core.state with
    | .created => p.refusal (.unconfigured p.core.name)
    | .initialized => p.refusal (.reinitialized p.core.name)
    | .configured => ⟨p.core, p.plugin.init p.memory, some .initialized⟩
  | .reset => ⟨p.rewind.core, p.plugin.reset p.memory, none⟩
  | .step =>
    if p.core.state = .initialized then ⟨p.core, p.round, none⟩
    else p.refusal (.uninitialized p.core.name)
  | .reconfigure update =>
    if p.core.state = .initialized then
      ⟨(p.retuned update).core,
        (p.plugin.reconfigure update p.memory).bind fun ran =>
          .done (ran.1.map fun _ => (p.core.registry.reconfigure update).1, ran.2),
        none⟩
    else p.refusal (.reconfiguredEarly p.core.name)
  | .connect key edge? =>
    ⟨(p.core.connect key edge?).2, .done ((p.core.connect key edge?).1, p.memory), none⟩
  | .setType key proposed =>
    match p.core.checkProposal key proposed with
    | .error e => p.refusal e
    | .ok () => ⟨p.core, p.plugin.proposeType key proposed p.memory, none⟩

end Process

namespace Task

variable {σ α : Type}

/-- What comes of a task if nobody comes between its requests. -/
structure Does (task : Task σ α) (plugin : Plugin σ) (edges : Edges)
    (attempt : Attempt (Process σ × Edges) α) : Prop where
  result_eq : attempt.1 = (task.hook.run ⟨task.core, edges⟩).1.1
  plugin_eq : attempt.2.1.plugin = plugin
  memory_eq : attempt.2.1.memory = (task.hook.run ⟨task.core, edges⟩).1.2
  alike : World.Alike
    { (task.hook.run ⟨task.core, edges⟩).2 with
      core := task.reach (task.hook.run ⟨task.core, edges⟩).1.1
        (task.hook.run ⟨task.core, edges⟩).2.core }
    (attempt.2.1.world attempt.2.2)

theorem Does.of_run {task : Task σ α} {plugin : Plugin σ} {edges : Edges}
    {attempt : Attempt (Process σ × Edges) α} {result : Except ProcessError α} {memory : σ} {w : World}
    (hrun : task.hook.run ⟨task.core, edges⟩ = ((result, memory), w)) (result_eq : attempt.1 = result)
    (plugin_eq : attempt.2.1.plugin = plugin) (memory_eq : attempt.2.1.memory = memory)
    (alike : World.Alike { w with core := task.reach result w.core }
      (attempt.2.1.world attempt.2.2)) :
    task.Does plugin edges attempt := by
  constructor
  · rw [hrun]
    exact result_eq
  · exact plugin_eq
  · rw [hrun]
    exact memory_eq
  · rw [hrun]
    exact alike

theorem Does.process_eq {task : Task σ α} {plugin : Plugin σ} {edges : Edges}
    {attempt : Attempt (Process σ × Edges) α} (h : task.Does plugin edges attempt) :
    attempt.2.1 =
      ⟨task.reach (task.hook.run ⟨task.core, edges⟩).1.1 (task.hook.run ⟨task.core, edges⟩).2.core,
        plugin, (task.hook.run ⟨task.core, edges⟩).1.2⟩ := by
  obtain ⟨result, ⟨core, plugin', memory⟩, edges'⟩ := attempt
  have hcore : _ = core := h.alike.core_eq
  have hplugin : plugin' = plugin := h.plugin_eq
  have hmemory : memory = _ := h.memory_eq
  rw [hplugin, hmemory, ← hcore]

theorem Does.congr {core : Core} {goal? : Option State} {hook other : Hook (Except ProcessError α × σ)}
    {plugin : Plugin σ} {edges : Edges} {attempt : Attempt (Process σ × Edges) α}
    (h : Does ⟨core, hook, goal?⟩ plugin edges attempt)
    (hrun : other.run ⟨core, edges⟩ = hook.run ⟨core, edges⟩) :
    Does ⟨core, other, goal?⟩ plugin edges attempt :=
  .of_run hrun h.result_eq h.plugin_eq h.memory_eq h.alike

end Task

namespace Process

variable {σ : Type}

theorem does_refusal {α : Type} (p : Process σ) (edges : Edges) (e : ProcessError) :
    (p.refusal e : Task σ α).Does p.plugin edges (.error e, p, edges) :=
  ⟨rfl, rfl, rfl, .refl _⟩

theorem does_react {α : Type} (p : Process σ) (edges : Edges) (hook : Reaction σ α) :
    Task.Does ⟨p.core, hook p.memory, none⟩ p.plugin edges (p.react edges hook) := by
  refine ⟨rfl, rfl, rfl, ?_⟩
  rw [react_world, Task.reach_none _ rfl]
  exact .refl _

/-- A hook that does not fail may be answered by something else. -/
theorem does_answer {α : Type} (p : Process σ) (edges : Edges) (hook : Reaction σ Unit) (answer : α) :
    Task.Does ⟨p.core, (hook p.memory).bind fun ran => .done (ran.1.map fun _ => answer, ran.2), none⟩
      p.plugin edges
      (match p.react edges hook with
        | (.error e, after) => (.error e, after)
        | (.ok (), after) => (.ok answer, after)) := by
  unfold react
  cases hrun : Hook.run (hook p.memory) (p.world edges) with
  | mk ran w =>
    have hbind := Hook.run_bind (hook p.memory)
      (fun ran => Hook.done (ran.1.map fun _ => answer, ran.2)) (p.world edges)
    rw [hrun] at hbind
    obtain ⟨result, memory⟩ := ran
    cases result with
    | error e =>
      apply Task.Does.of_run hbind
      exacts [rfl, rfl, rfl, .refl _]
    | ok _ =>
      apply Task.Does.of_run hbind
      exacts [rfl, rfl, rfl, .refl _]

theorem does_advance (p : Process σ) (edges : Edges) (hook : Reaction σ Unit) (state : State) :
    Task.Does ⟨p.core, hook p.memory, some state⟩ p.plugin edges (p.advance edges hook state) := by
  unfold advance react
  cases hrun : Hook.run (hook p.memory) (p.world edges) with
  | mk ran w =>
    obtain ⟨result, memory⟩ := ran
    cases result with
    | error e =>
      apply Task.Does.of_run hrun
      exacts [rfl, rfl, rfl, .refl _]
    | ok _ =>
      apply Task.Does.of_run hrun
      exacts [rfl, rfl, rfl, .refl _]

theorem does_alike (p : Process σ) (edges : Edges) {hook : Hook Unit} {w : World}
    (h : (hook.run (p.world edges)).2.Alike w) :
    Task.Does ⟨p.core, hook.bind fun _ => .done (.ok (), p.memory), none⟩ p.plugin edges
      (.ok (), p.inWorld w) := by
  have hrun : (hook.bind fun _ => Hook.done ((.ok (), p.memory) : Except ProcessError Unit × σ)).run
      (p.world edges) = ((.ok (), p.memory), (hook.run (p.world edges)).2) :=
    Hook.run_bind hook _ _
  apply Task.Does.of_run hrun
  exacts [rfl, rfl, rfl, h]

theorem run_turn (p : Process σ) (edges : Edges) :
    p.turn.run (p.world edges) =
      (p.response (p.world edges).requiredHeads (p.judge edges)).run (p.world edges) := by
  rw [turn, Hook.run_bind, Hook.run_survey]
  rfl

theorem does_turn (p : Process σ) (edges : Edges) :
    Task.Does ⟨p.core, p.turn, none⟩ p.plugin edges (p.act edges) := by
  -- Looking at the heads changes nothing, so that only the response is left to do.
  apply Task.Does.congr _ (p.run_turn edges)
  unfold act response
  cases p.judge edges with
  | step => exact p.does_react edges p.plugin.step
  | desync => exact p.does_alike edges (Hook.run_fault _ _ _)
  | propagate status =>
    by_cases hstatus : status = .complete
    · simp only [if_pos hstatus]
      apply p.does_alike edges
      exact Hook.run_fault _ _ _
    · simp only [if_neg hstatus]
      exact p.does_alike edges (Hook.run_fault _ _ _)

theorem does_round (p : Process σ) (edges : Edges) (running : p.core.state = .initialized) :
    Task.Does ⟨p.core, p.round, none⟩ p.plugin edges (p.step edges) := by
  unfold step round work
  rw [if_pos running]
  by_cases complete : p.core.complete = true
  · rw [if_pos complete, if_pos complete]
    exact p.does_alike edges (.refl _)
  · rw [if_neg complete, if_neg complete]
    cases hrun : p.turn.run ⟨p.core, edges⟩ with
    | mk ran w =>
      obtain ⟨result, memory⟩ := ran
      obtain ⟨hresult, hplugin, hmemory, halike⟩ := p.does_turn edges
      rw [Task.reach_none _ rfl] at halike
      simp only [hrun] at hresult hmemory halike
      generalize p.act edges = acted at *
      obtain ⟨acted, q, now⟩ := acted
      obtain rfl : acted = result := hresult
      -- Only a turn that has not failed is reported.
      cases acted with
      | error e =>
        dsimp only
        apply Task.Does.of_run (w := w)
        · rw [Hook.run_bind, hrun]
          rfl
        · rfl
        · exact hplugin
        · exact hmemory
        · exact halike
      | ok _ =>
        dsimp only
        apply Task.Does.of_run (w := w.beat)
        · rw [Hook.run_bind, hrun]
          rfl
        · rfl
        · exact hplugin
        · exact hmemory
        · exact halike.beat

/-- A task that nobody comes between does what its command does. -/
theorem perform_task (p : Process σ) (edges : Edges) (command : Command) :
    (p.task command).Does p.plugin edges (p.perform edges command) := by
  -- Each command looks at the state first: it is refused, or it runs its one hook.
  cases command with
  | configure =>
    unfold perform task configure
    dsimp only
    by_cases created : p.core.state = .created
    · rw [if_pos created, if_pos created]
      exact p.does_advance edges _ _
    · rw [if_neg created, if_neg created]
      exact p.does_refusal edges _
  | init =>
    unfold perform task init
    dsimp only
    cases p.core.state with
    | created => exact p.does_refusal edges _
    | initialized => exact p.does_refusal edges _
    | configured => exact p.does_advance edges _ _
  | reset => exact p.rewind.does_react edges p.plugin.reset
  | step =>
    unfold perform task
    dsimp only
    by_cases running : p.core.state = .initialized
    · rw [if_pos running]
      exact p.does_round edges running
    · rw [if_neg running, step, if_neg running]
      exact p.does_refusal edges _
  | reconfigure update =>
    unfold perform task
    dsimp only
    by_cases running : p.core.state = .initialized
    · rw [if_pos running, reconfigure_of_running running]
      exact (p.retuned update).does_answer edges _ _
    · rw [if_neg running, reconfigure, if_neg running]
      exact p.does_refusal edges _
  | connect key edge? =>
    refine ⟨rfl, rfl, rfl, ?_⟩
    rw [Task.reach_none _ rfl]
    exact .refl _
  | setType key proposed =>
    unfold perform task setType
    dsimp only
    cases p.core.checkProposal key proposed with
    | error e => exact p.does_refusal edges e
    | ok _ => exact p.does_react edges _

theorem perform_plugin (p : Process σ) (edges : Edges) (command : Command) :
    (p.perform edges command).2.1.plugin = p.plugin :=
  (p.perform_task edges command).plugin_eq

theorem follow_plugin (p : Process σ) (commands : List (Edges × Command)) :
    (p.follow commands).plugin = p.plugin := by
  induction commands generalizing p with
  | nil => rfl
  | cons given rest ih => exact (ih _).trans (p.perform_plugin given.1 given.2)

end Process

end Dataflow
