import Mathlib.Logic.Function.Basic
import Dataflow.Proofs.Process.Task

/-!
# Processes at work together

Several processes work on one store of edges, each in its own time. What happens next is told by an
event: a process is made, a command is begun, the process that is at work on it does its next
request, or somebody else takes from an edge or puts something on it. A schedule is a list of
events, in any order. One in which a process waits at an empty edge is among them: it has no event
of this process until there is something to take.
-/

namespace Dataflow

/-- What a process is at: nothing, or the rest of a task. It is told whether there was a process
before the task, to be left if the task fails. -/
inductive Work (σ : Type) where
  | idle (memory : σ)
  | busy (rest : Hook (Except ProcessError Unit × σ)) (goal? : Option State) (made : Bool)

/-- A process at work. -/
structure Actor (σ : Type) where
  core : Core
  plugin : Plugin σ
  work : Work σ

namespace Actor

variable {σ : Type}

/-- The actor that begins with a task. -/
def ofTask {α : Type} (task : Task σ α) (plugin : Plugin σ) : Actor σ :=
  ⟨task.core, plugin,
    .busy (task.hook.bind fun ran => .done (ran.1.map fun _ => (), ran.2)) task.goal? true⟩

def making (config : Config) (plugin : Plugin σ) (memory : σ) : Actor σ :=
  ⟨.ofConfig config, plugin, .busy (plugin.declare memory) none false⟩

def idle? (a : Actor σ) : Option (Process σ) :=
  match a.work with
  | .idle memory => some ⟨a.core, a.plugin, memory⟩
  | .busy _ _ _ => none

/-- What comes of an actor and of the edges by its next request. Behind the last request the task is
over. Nothing is left of a process that could not be made. -/
def go (a : Actor σ) (edges : Edges) : Option (Actor σ) × Edges :=
  match a.work with
  | .idle _ => (some a, edges)
  | .busy (.ask r next) goal? made =>
    let (reply, w) := World.perform ⟨a.core, edges⟩ r
    (some ⟨w.core, a.plugin, .busy (next reply) goal? made⟩, w.edges)
  | .busy (.done (.ok (), memory)) goal? _ =>
    (some ⟨goal?.elim a.core fun state => { a.core with state }, a.plugin, .idle memory⟩, edges)
  | .busy (.done (.error _, memory)) _ made =>
    (if made then some { a with work := .idle memory } else none, edges)

/-- What the next request of an actor does. -/
def does {γ : Type} (a : Actor σ) (edges : Edges) (what : World → Request → List γ) : List γ :=
  match a.work with
  | .busy (.ask r _) _ _ => what ⟨a.core, edges⟩ r
  | _ => []

/-- A task that is over leaves the core that it reaches. -/
theorem go_over {α : Type} (task : Task σ α) (result : Except ProcessError α) (memory : σ) (core : Core)
    (plugin : Plugin σ) (edges : Edges) :
    go ⟨core, plugin, .busy (.done (result.map fun _ => (), memory)) task.goal? true⟩ edges =
      (some ⟨task.reach result core, plugin, .idle memory⟩, edges) := by
  unfold Task.reach
  cases result with
  | error e => rfl
  | ok a => cases task.goal? <;> rfl

end Actor

variable {ι : Type} [DecidableEq ι] {σ : ι → Type}

/-- Processes at work on one store of edges. -/
structure Ensemble {ι : Type} (σ : ι → Type) where
  actors : (i : ι) → Option (Actor (σ i))
  edges : Edges

/-- What may happen next. -/
inductive Event {ι : Type} (σ : ι → Type) where
  | make (i : ι) (config : Config) (plugin : Plugin (σ i)) (memory : σ i)
  | begin (i : ι) (command : Command)
  | go (i : ι)
  | pop (edge : EdgeId)
  | clear (edge : EdgeId)
  | feed (edge : EdgeId) (token : Stamped)

namespace Ensemble

/-- The ensemble without processes. -/
def start (edges : Edges) : Ensemble σ := ⟨fun _ => none, edges⟩

def put (s : Ensemble σ) (i : ι) (actor? : Option (Actor (σ i))) : Ensemble σ :=
  { s with actors := Function.update s.actors i actor? }

def idle? (s : Ensemble σ) (i : ι) : Option (Process (σ i)) := (s.actors i).bind Actor.idle?

/-- What comes of an event. -/
def next (s : Ensemble σ) : Event σ → Ensemble σ
  | .make i config plugin memory => s.put i (some (.making config plugin memory))
  | .begin i command =>
    match s.idle? i with
    | some p => s.put i (some (.ofTask (p.task command) p.plugin))
    | none => s
  | .go i =>
    match s.actors i with
    | some a => { s.put i (a.go s.edges).1 with edges := (a.go s.edges).2 }
    | none => s
  | .pop edge => { s with edges := (s.edges.pop edge).2 }
  | .clear edge => { s with edges := s.edges.clear edge }
  | .feed edge token => { s with edges := s.edges.push edge token }

def after (s : Ensemble σ) (events : List (Event σ)) : Ensemble σ := events.foldl next s

@[simp] theorem put_self (s : Ensemble σ) (i : ι) (actor? : Option (Actor (σ i))) :
    (s.put i actor?).actors i = actor? := by
  unfold put
  exact Function.update_self ..

@[simp] theorem put_of_ne (s : Ensemble σ) {i j : ι} (h : j ≠ i) (actor? : Option (Actor (σ i))) :
    (s.put i actor?).actors j = s.actors j := by
  unfold put
  exact Function.update_of_ne h ..

theorem next_go {s : Ensemble σ} {i : ι} {a : Actor (σ i)} (h : s.actors i = some a) :
    s.next (.go i) = { s.put i (a.go s.edges).1 with edges := (a.go s.edges).2 } := by
  unfold next
  dsimp only
  rw [h]

/-! ## A command that nobody comes between -/

theorem after_go {s : Ensemble σ} {i : ι} {core : Core} {plugin : Plugin (σ i)}
    {rest : Hook (Except ProcessError Unit × σ i)} {goal? : Option State} {made : Bool}
    (h : s.actors i = some ⟨core, plugin, .busy rest goal? made⟩) :
    ∃ count, let s' := s.after (List.replicate count (.go i))
      s'.actors i = some ⟨(rest.run ⟨core, s.edges⟩).2.core, plugin,
          .busy (.done (rest.run ⟨core, s.edges⟩).1) goal? made⟩ ∧
        s'.edges = (rest.run ⟨core, s.edges⟩).2.edges ∧ ∀ j, j ≠ i → s'.actors j = s.actors j := by
  -- Every request of the hook is one event, so the induction is on the hook.
  induction rest generalizing s core with
  | done result => exact ⟨0, h, rfl, fun _ _ => rfl⟩
  | ask r next ih =>
    have hnext := next_go h
    have hactor : (s.next (.go i)).actors i =
        some ⟨(World.perform ⟨core, s.edges⟩ r).2.core, plugin,
          .busy (next (World.perform ⟨core, s.edges⟩ r).1) goal? made⟩ := by
      rw [hnext]
      exact s.put_self i _
    have hedges : (s.next (.go i)).edges = (World.perform ⟨core, s.edges⟩ r).2.edges := by
      rw [hnext]
      rfl
    obtain ⟨count, hrest, hqueues, hothers⟩ := ih _ hactor
    rw [hedges] at hrest hqueues
    refine ⟨count + 1, hrest, hqueues, fun j hj => (hothers j hj).trans ?_⟩
    rw [hnext]
    exact s.put_of_ne hj _

theorem after_append (s : Ensemble σ) (events more : List (Event σ)) :
    s.after (events ++ more) = (s.after events).after more :=
  List.foldl_append

/-- If nobody comes between its requests, a command leaves the process that `perform` says, and the
others as they were. -/
theorem after_command {s : Ensemble σ} {i : ι} {p : Process (σ i)} (h : s.idle? i = some p)
    (command : Command) :
    ∃ count, let s' := s.after (.begin i command :: List.replicate count (.go i))
      s'.idle? i = some (p.perform s.edges command).2.1 ∧
        (∀ edge, s'.edges.queue edge = (p.perform s.edges command).2.2.queue edge) ∧
        ∀ j, j ≠ i → s'.actors j = s.actors j := by
  have hdoes := p.perform_task s.edges command
  have hbegin : s.next (.begin i command) = s.put i (some (.ofTask (p.task command) p.plugin)) := by
    unfold next
    dsimp only
    rw [h]
  have hactor : (s.next (.begin i command)).actors i =
      some (.ofTask (p.task command) p.plugin) := by
    rw [hbegin]
    exact s.put_self i _
  have hedges : (s.next (.begin i command)).edges = s.edges := by
    rw [hbegin]
    rfl
  obtain ⟨count, hrest, hqueues, hothers⟩ := after_go hactor
  rw [hedges, Hook.run_bind] at hrest hqueues
  -- Behind the last request it takes one more event until the task is over.
  have hover := next_go hrest
  rw [Hook.run_done, Actor.go_over] at hover
  have hperformed := hdoes.process_eq
  have hsplit : s.after (.begin i command :: List.replicate (count + 1) (.go i)) =
      (((s.next (.begin i command)).after (List.replicate count (.go i))).next (.go i)) := by
    rw [List.replicate_succ']
    exact List.foldl_append
  refine ⟨count + 1, ?_, fun edge => ?_, fun j hj => ?_⟩
  · rw [hsplit, hover, idle?]
    dsimp only
    rw [put_self, hperformed]
    rfl
  · rw [hsplit, hover]
    dsimp only
    rw [hqueues]
    exact hdoes.alike.queue_eq edge
  · rw [hsplit, hover]
    dsimp only
    rw [put_of_ne _ hj, hothers j hj, hbegin, put_of_ne _ hj]

/-- If nobody comes between its requests, making a process leaves what `create` says. -/
theorem after_make (s : Ensemble σ) (i : ι) (config : Config) (plugin : Plugin (σ i)) (memory : σ i) :
    ∃ count,
      let s' := s.after (.make i config plugin memory :: List.replicate count (.go i))
      let made := Process.create config plugin memory s.edges
      s'.idle? i = (if made.1.isOk then some made.2.1 else none) ∧ s'.edges = made.2.2 ∧
        ∀ j, j ≠ i → s'.actors j = s.actors j := by
  have hactor := s.put_self i (some (.making config plugin memory))
  obtain ⟨count, hrest, hqueues, hothers⟩ := after_go hactor
  have hover := next_go hrest
  have hsplit : s.after (.make i config plugin memory :: List.replicate (count + 1) (.go i)) =
      (((s.put i (some (.making config plugin memory))).after (List.replicate count (.go i))).next
        (.go i)) := by
    rw [List.replicate_succ']
    exact List.foldl_append
  unfold Process.create Process.react
  cases hrun : Hook.run (plugin.declare memory)
      (Process.world ⟨.ofConfig config, plugin, memory⟩ s.edges) with
  | mk ran w =>
    have hran : (plugin.declare memory).run ⟨.ofConfig config, (s.put i
      (some (.making config plugin memory))).edges⟩ = (ran, w) := hrun
    rw [hran] at hrest hqueues hover
    obtain ⟨result, memory'⟩ := ran
    refine ⟨count + 1, ?_, ?_, fun j hj => ?_⟩
    · rw [hsplit, hover, idle?]
      dsimp only
      rw [put_self]
      cases result <;> rfl
    · rw [hsplit, hover]
      cases result <;> exact hqueues
    · rw [hsplit, hover]
      dsimp only
      rw [put_of_ne _ hj, hothers j hj, put_of_ne _ hj]

end Ensemble

end Dataflow
