import Dataflow.Process.Snapshot
import Dataflow.Proofs.Process.Beside

/-!
# Observers

An edge that is bound to an output is an observer of the process: it gets what the output sends, and
the process does not know of it, as long as no hook asks how many edges an output has. So some calls
that bind outputs may be left out of a run, and nothing else changes: the commands come to the same,
the hooks ask the same and are replied the same, and the same data go through every binding that is
kept, under the same stamps. Both runs are gone through side by side. What they do not share is on the
edges of the calls that are left out, and no input is ever bound to one of these. Such an edge may be
bound by a call that is kept as well: it gets more then if both are there.
-/

namespace Dataflow

/-- What is done to a process and to edges. A call that binds an output may be marked as one to be
left out. -/
inductive Deed where
  | command (given : Command)
  | observe (name : String) (edge? : Option EdgeId)
  | feed (edge : EdgeId) (token : Stamped)
  | take (edge : EdgeId)

namespace Deed

/-- The command of a deed, unless it is marked. -/
def command? : Deed → Option Command
  | command given => some given
  | observe _ _ | feed _ _ | take _ => none

/-- Whether a deed is to be left out. -/
def isMarked : Deed → Bool
  | observe _ _ => true
  | command _ | feed _ _ | take _ => false

/-- What is left if the marked calls are left out. -/
def kept (deeds : List Deed) : List Deed := deeds.filter fun deed => !deed.isMarked

theorem kept_of_marked {deed : Deed} (h : deed.isMarked = true) (rest : List Deed) :
    kept (deed :: rest) = kept rest :=
  List.filter_cons_of_neg (by rw [h]; decide)

theorem kept_of_unmarked {deed : Deed} (h : deed.isMarked = false) (rest : List Deed) :
    kept (deed :: rest) = deed :: kept rest :=
  List.filter_cons_of_pos (by rw [h]; rfl)

end Deed

/-- The snapshot without the number of edges. -/
def PortSnapshot.hushed (port : PortSnapshot) : PortSnapshot := { port with edges := 0 }

namespace Snapshot

/-- The snapshot without the numbers of edges of outputs. -/
def hushed (s : Snapshot) : Snapshot := { s with outputs := s.outputs.map PortSnapshot.hushed }

end Snapshot

namespace Core

/-- The edges that are bound to the ports of a direction. -/
def boundTo (c : Core) (direction : Direction) : List EdgeId :=
  c.ports.toList.flatMap fun entry => if entry.1.direction = direction then entry.2.edges else []

end Core

namespace Process

variable {σ : Type}

/-! ## Runs -/

/-- What a deed makes of a process and of the edges. -/
def undergo (p : Process σ) (edges : Edges) : Deed → Process σ × Edges
  | .command given => (p.perform edges given).2
  | .observe name edge? => (p.perform edges (.connect (.output name) edge?)).2
  | .feed edge token => (p, edges.push edge token)
  | .take edge => (p, (edges.pop edge).2)

/-- What is left of a process and of the edges in the end. -/
def outcome (p : Process σ) (edges : Edges) : List Deed → Process σ × Edges
  | [] => (p, edges)
  | deed :: rest => (p.undergo edges deed).1.outcome (p.undergo edges deed).2 rest

/-- Something of every command of a run that is not marked. -/
def gather {β : Type} (what : Process σ → Edges → Command → β) (p : Process σ) (edges : Edges) :
    List Deed → List β
  | [] => []
  | deed :: rest =>
    (deed.command?.map (what p edges)).toList ++
      (p.undergo edges deed).1.gather what (p.undergo edges deed).2 rest

/-- The cores that a run comes through. -/
def stages (p : Process σ) (edges : Edges) : List Deed → List Core
  | [] => [p.core]
  | deed :: rest =>
    p.core :: (p.undergo edges deed).1.stages (p.undergo edges deed).2 rest

/-- The edge that a marked call binds. -/
def binds (p : Process σ) : Deed → Option EdgeId
  | .observe name edge? => if (p.core.connect (.output name) edge?).1.isOk then edge? else none
  | .command _ | .feed _ _ | .take _ => none

/-- The edges that the marked calls of a run bind. -/
def observers (p : Process σ) (edges : Edges) : List Deed → List EdgeId
  | [] => []
  | deed :: rest =>
    (p.binds deed).toList ++
      (p.undergo edges deed).1.observers (p.undergo edges deed).2 rest

theorem core_mem_stages (p : Process σ) (edges : Edges) (deeds : List Deed) :
    p.core ∈ p.stages edges deeds := by
  cases deeds <;> exact List.mem_cons_self

theorem undergo_plugin (p : Process σ) (edges : Edges) (deed : Deed) :
    (p.undergo edges deed).1.plugin = p.plugin := by
  cases deed with
  | command given => exact (p.perform_task edges given).plugin_eq
  | observe name edge? | feed edge token | take edge => rfl

/-- A marked call binds its edge, or it changes nothing. -/
theorem binds_cases (p : Process σ) (name : String) (edge? : Option EdgeId) :
    p.binds (.observe name edge?) = none ∧ (p.core.connect (.output name) edge?).2 = p.core ∨
      ∃ edge port, p.binds (.observe name edge?) = some edge ∧
        p.core.port? (.output name) = some port ∧
        (p.core.connect (.output name) edge?).2 =
          p.core.modifyPort (.output name) fun port => { port with edges := port.edges ++ [edge] } := by
  rcases p.core.connect_cases (.output name) edge? with
    ⟨e, hconnect⟩ | ⟨edge, port, rfl, -, declared, -, hconnect⟩
  · left
    rw [binds, hconnect]
    exact ⟨rfl, rfl⟩
  · right
    refine ⟨edge, port, ?_, declared, congrArg Prod.snd hconnect⟩
    rw [binds, hconnect]
    rfl

/-- Whether the edges of the marked calls of a run are out of sight, and inputs are bound to others
only. -/
structure Hides (hidden : EdgeId → Prop) (p : Process σ) (edges : Edges) (deeds : List Deed) : Prop where
  observers : ∀ edge ∈ p.observers edges deeds, hidden edge
  inputs : ∀ c ∈ p.stages edges deeds, ∀ {name port edge}, c.port? (.input name) = some port →
    edge ∈ port.edges → ¬ hidden edge

namespace Hides

variable {hidden : EdgeId → Prop} {p : Process σ} {edges : Edges} {deed : Deed} {rest : List Deed}

theorem binds (h : Hides hidden p edges (deed :: rest)) {edge : EdgeId}
    (hedge : p.binds deed = some edge) : hidden edge :=
  h.observers edge (List.mem_append_left _ (Option.mem_toList.mpr hedge))

theorem tail (h : Hides hidden p edges (deed :: rest)) :
    Hides hidden (p.undergo edges deed).1 (p.undergo edges deed).2 rest where
  observers edge hedge := h.observers edge (List.mem_append_right _ hedge)
  inputs c hc := h.inputs c (List.mem_cons_of_mem _ hc)

theorem inputs_behind (h : Hides hidden p edges (deed :: rest)) {name : String} {port : Port}
    {edge : EdgeId} (hport : (p.undergo edges deed).1.core.port? (.input name) = some port)
    (hedge : edge ∈ port.edges) : ¬ hidden edge :=
  h.inputs _ (List.mem_cons_of_mem _ (core_mem_stages _ _ _)) hport hedge

end Hides

namespace Near

variable {hidden : EdgeId → Prop} {p q : Process σ} {edges edges' : Edges}

/-- A deed in both worlds leaves them as near as they were. -/
theorem undergo (h : Near hidden p edges q edges') (blind : p.plugin.Blind) {deed : Deed}
    {rest : List Deed} (hides : Hides hidden p edges (deed :: rest)) (unmarked : deed.isMarked = false) :
    Near hidden (p.undergo edges deed).1 (p.undergo edges deed).2 (q.undergo edges' deed).1
      (q.undergo edges' deed).2 := by
  cases deed with
  | command given => exact (h.perform blind given hides.inputs_behind).2
  | observe name edge? => exact nomatch unmarked
  | feed edge token => exact ⟨h.plugin_eq, h.memory_eq, h.world.feed edge token⟩
  | take edge => exact ⟨h.plugin_eq, h.memory_eq, h.world.take edge⟩

/-- So does a marked call in one of them. -/
theorem observe (h : Near hidden p edges q edges') {deed : Deed} {rest : List Deed}
    (hides : Hides hidden p edges (deed :: rest)) (marked : deed.isMarked = true) :
    Near hidden (p.undergo edges deed).1 (p.undergo edges deed).2 q edges' := by
  cases deed with
  | command _ | feed _ _ | take _ => exact nomatch marked
  | observe name edge? =>
    refine ⟨h.plugin_eq, h.memory_eq, ?_⟩
    change World.Near hidden ⟨(p.core.connect (.output name) edge?).2, edges⟩ (q.world edges')
    -- Only the edge of the call tells the worlds apart, and it is out of sight.
    rcases p.binds_cases name edge? with ⟨-, hcore⟩ | ⟨edge, port, hbinds, -, hcore⟩
    · rw [hcore]
      exact h.world
    · rw [hcore]
      exact h.world.bind_hidden name (hides.binds hbinds)

theorem outcome (h : Near hidden p edges q edges') (blind : p.plugin.Blind) {deeds : List Deed}
    (hides : Hides hidden p edges deeds) :
    Near hidden (p.outcome edges deeds).1 (p.outcome edges deeds).2 (q.outcome edges' (Deed.kept deeds)).1
      (q.outcome edges' (Deed.kept deeds)).2 := by
  induction deeds generalizing p q edges edges' with
  | nil => exact h
  | cons deed rest ih =>
    -- The induction is on the deeds of the full run. A marked one moves the first process alone.
    have blind' : (p.undergo edges deed).1.plugin.Blind := (p.undergo_plugin edges deed).symm ▸ blind
    cases mark : deed.isMarked with
    | true =>
      rw [Deed.kept_of_marked mark]
      exact ih (h.observe hides mark) blind' hides.tail
    | false =>
      rw [Deed.kept_of_unmarked mark]
      exact ih (h.undergo blind hides mark) blind' hides.tail

/-- What near processes share of a command, near runs share of all commands. -/
theorem gather {β : Type} {what : Process σ → Edges → Command → β} {R : β → β → Prop}
    (here : ∀ {p q : Process σ} {edges edges' : Edges} {command : Command},
      Near hidden p edges q edges' → p.plugin.Blind →
      (∀ {name port edge}, (p.perform edges command).2.1.core.port? (.input name) = some port →
        edge ∈ port.edges → ¬ hidden edge) → R (what q edges' command) (what p edges command))
    (h : Near hidden p edges q edges') (blind : p.plugin.Blind) {deeds : List Deed}
    (hides : Hides hidden p edges deeds) :
    List.Forall₂ R (q.gather what edges' (Deed.kept deeds)) (p.gather what edges deeds) := by
  induction deeds generalizing p q edges edges' with
  | nil => exact .nil
  | cons deed rest ih =>
    have blind' : (p.undergo edges deed).1.plugin.Blind := (p.undergo_plugin edges deed).symm ▸ blind
    cases deed with
    | observe name edge? => exact ih (h.observe hides rfl) blind' hides.tail
    | command given =>
      have hrest := ih (h.undergo blind hides rfl) blind' hides.tail
      exact .cons (here h blind hides.inputs_behind) hrest
    | feed edge token => exact ih (h.undergo blind hides rfl) blind' hides.tail
    | take edge => exact ih (h.undergo blind hides rfl) blind' hides.tail

end Near

end Process

end Dataflow
