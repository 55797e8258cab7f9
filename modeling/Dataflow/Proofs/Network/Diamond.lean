import Dataflow.Proofs.Process.Completion
import Dataflow.Proofs.Process.Output

/-!
# The diamond

Two outputs of one process are bound to two required inputs of another. If a step of the first one
sends as much from the one output as from the other, and a step of the second one takes as much from
the one edge as from the other, the two edges stay level: they hold data of the same places. What a
step does that finds fault, it does to both alike.
-/

namespace Dataflow

namespace Core

/-- Whether an output has an edge, once, and no other port has it. -/
structure Feeds (c : Core) (name : String) (edge : EdgeId) : Prop where
  bound : ∃ port, c.port? (.output name) = some port ∧ port.edges.count edge = 1
  alone : ∀ key port, key ≠ .output name → c.port? key = some port → edge ∉ port.edges

/-- Whether the required inputs that are bound are just these two, with edges that no output has and
that a step takes equally many data from. -/
structure Draws (c : Core) (left right : String) (edge edge' : EdgeId) : Prop where
  bound : ∃ port port', World.Requires ⟨c, .empty⟩ left port edge ∧
    World.Requires ⟨c, .empty⟩ right port' edge' ∧
    port.info.frequency.tokensPerStep = port'.info.frequency.tokensPerStep
  only : ∀ name port other, World.Requires ⟨c, .empty⟩ name port other → name = left ∨ name = right
  free : ∀ name port, c.port? (.output name) = some port → edge ∉ port.edges
  free' : ∀ name port, c.port? (.output name) = some port → edge' ∉ port.edges

variable {c after : Core} {name left right : String} {edge edge' : EdgeId}

theorem feeds_of_ports
    (bound : (c.port? (.output name)).map (fun port => port.edges.count edge) = some 1)
    (alone : ∀ entry ∈ c.ports.toList, entry.1 ≠ .output name → edge ∉ entry.2.edges) :
    c.Feeds name edge where
  bound := Option.map_eq_some_iff.mp bound
  alone _ _ hkey hport := alone _ (mem_ports hport) hkey

theorem Feeds.frozen (h : c.Feeds name edge) (frozen : c.Frozen after) : after.Feeds name edge := by
  obtain ⟨port, hport, once⟩ := h.bound
  constructor
  · have hedges := frozen.edges_eq (.output name)
    rw [hport, Option.map_some] at hedges
    obtain ⟨port', hport', hsame⟩ := Option.map_eq_some_iff.mp hedges
    exact ⟨port', hport', hsame ▸ once⟩
  · intro key port' hkey
    exact frozen.free (fun port => h.alone key port hkey) port'

theorem Draws.frozen (h : c.Draws left right edge edge') (frozen : c.Frozen after) :
    after.Draws left right edge edge' := by
  obtain ⟨port, port', hport, hport', hrates⟩ := h.bound
  obtain ⟨mid, hmid, hinfo⟩ := frozen.requires .empty hport
  obtain ⟨mid', hmid', hinfo'⟩ := frozen.requires .empty hport'
  constructor
  · refine ⟨mid, mid', hmid, hmid', ?_⟩
    rw [hinfo, hinfo', hrates]
  · intro name port other hother
    obtain ⟨before, hbefore, -⟩ := frozen.symm.requires .empty hother
    exact h.only name before other hbefore
  · intro name
    exact frozen.free (h.free name)
  · intro name
    exact frozen.free (h.free' name)

theorem Draws.edge_eq (h : c.Draws left right edge edge') {port : Port} {other : EdgeId}
    {edges : Edges} (hother : World.Requires ⟨c, edges⟩ name port other) :
    (name = left ∧ other = edge) ∨ (name = right ∧ other = edge') := by
  obtain ⟨before, before', hleft, hright, -⟩ := h.bound
  have hsame {port port' : Port} {other other' : EdgeId} {edges : Edges}
      (h : World.Requires ⟨c, edges⟩ name port other)
      (h' : World.Requires ⟨c, .empty⟩ name port' other') : other = other' := by
    obtain rfl := Option.some.inj (h.declared.symm.trans h'.declared)
    exact Option.some.inj (h.bound.symm.trans h'.bound)
  rcases h.only name port other ⟨hother.declared, hother.required, hother.bound⟩ with rfl | rfl
  · exact .inl ⟨rfl, hsame hother hleft⟩
  · exact .inr ⟨rfl, hsame hother hright⟩

end Core

/-- Whether a command is one of those that a running process goes by. -/
def Command.Works : Command → Prop
  | .step | .reconfigure _ => True
  | _ => False

theorem Command.Works.noReset {command : Command} (h : command.Works) : command ≠ .reset := by
  rintro rfl
  exact h

namespace Process

variable {σ : Type} {p : Process σ} {name left right : String} {edge edge' : EdgeId}

/-! ## What is sent -/

theorem length_posted_step {name' : String} (running : p.core.state = .initialized) (edges : Edges)
    (hname : name ≠ Core.heartbeat) (hname' : name' ≠ Core.heartbeat)
    (declared : (p.core.port? (.output name)).isSome)
    (declared' : (p.core.port? (.output name')).isSome)
    (alike : p.calls edges .step ≠ [] →
      ((p.plugin.step p.memory).posted (p.world edges) name).length =
        ((p.plugin.step p.memory).posted (p.world edges) name').length) :
    (p.posted edges .step name).length = (p.posted edges .step name').length := by
  -- The report does not count, since it goes out of neither of the two.
  rw [posted_step running edges declared, posted_step running edges declared',
    if_neg fun h => hname h.1, if_neg fun h => hname' h.1, List.append_nil, List.append_nil]
  unfold worked
  by_cases complete : p.core.complete = true
  · rw [if_pos complete, if_pos complete]
  · rw [if_neg complete, if_neg complete]
    cases hjudge : p.judge edges with
    | step =>
      apply alike
      rw [calls, if_pos ⟨running, Bool.eq_false_iff.mpr complete, hjudge⟩]
      exact List.cons_ne_nil _ _
    | desync | propagate status =>
      dsimp only [Verdict.fault?]
      rw [if_neg hname, if_neg hname']

/-- An output feeds its edge under the places that it goes through. -/
theorem perform_of_feeds (feeds : p.core.Feeds name edge) (running : p.core.state = .initialized)
    {command : Command} (noReset : command ≠ .reset) (edges : Edges) :
    ((p.perform edges command).2.2.queue edge).map Stamped.stamp =
        (edges.queue edge).map Stamped.stamp ++
          List.range' ((p.world edges).nextStamp name) (p.posted edges command name).length ∧
      ((p.perform edges command).2.1.world (p.perform edges command).2.2).nextStamp name =
        (p.world edges).nextStamp name + (p.posted edges command name).length := by
  obtain ⟨port, hport, once⟩ := feeds.bound
  obtain ⟨after, hafter, hstamp, -⟩ := perform_output noReset (.inl running) hport edges
  have hnow : (p.world edges).nextStamp name = port.stamp := by
    change ((p.core.port? (.output name)).map Port.stamp).getD .first = port.stamp
    rw [hport]
    rfl
  have hthen : ((p.perform edges command).2.1.world (p.perform edges command).2.2).nextStamp name =
      after.stamp := by
    change (((p.perform edges command).2.1.core.port? (.output name)).map Port.stamp).getD .first = _
    rw [hafter]
    rfl
  constructor
  · rw [perform_queue_of_alone noReset running hport once feeds.alone, List.map_append,
      map_stamp_stampFrom, hnow]
  · rw [hthen, hstamp, hnow]

/-! ## What is taken -/

theorem step_of_draws (draws : p.core.Draws left right edge edge') (apart : edge ≠ edge')
    (running : p.core.state = .initialized) (edges : Edges)
    (alike : p.calls edges .step ≠ [] →
      ((p.plugin.step p.memory).taken (p.world edges) edge).length =
        ((p.plugin.step p.memory).taken (p.world edges) edge').length) :
    ∃ count, (p.step edges).2.2.queue edge = (edges.queue edge).drop count ∧
      (p.step edges).2.2.queue edge' = (edges.queue edge').drop count := by
  by_cases complete : p.core.complete = true
  · -- A complete process only reports, and no edge of its inputs gets the report.
    have hbeat {other : EdgeId} (free : ∀ name port,
        p.core.port? (.output name) = some port → other ∉ port.edges) :
        (p.step edges).2.2.queue other = (edges.queue other).drop 0 := by
      rw [step_of_complete running complete]
      apply (World.beat_queue _ other).trans
      exact (congrArg _ (Core.sent_of_free (free Core.heartbeat) _)).trans (List.append_nil _)
    exact ⟨0, hbeat draws.free, hbeat draws.free'⟩
  have incomplete := Bool.eq_false_iff.mpr complete
  by_cases hjudge : p.judge edges = .step
  · have hcalls : p.calls edges .step ≠ [] := by
      rw [calls, if_pos ⟨running, incomplete, hjudge⟩]
      exact List.cons_ne_nil _ _
    refine ⟨_, step_queue_of_hook running incomplete hjudge draws.free, ?_⟩
    rw [alike hcalls]
    exact step_queue_of_hook running incomplete hjudge draws.free'
  · obtain ⟨datum, complete, hfault⟩ := Verdict.fault?_of_ne_step hjudge
    obtain ⟨port, port', hleft, hright, hrates⟩ := draws.bound
    have hport : (p.world edges).Requires left port edge :=
      ⟨hleft.declared, hleft.required, hleft.bound⟩
    have hport' : (p.world edges).Requires right port' edge' :=
      ⟨hright.declared, hright.required, hright.bound⟩
    -- The fault costs both inputs what a step would take, which is the same.
    refine ⟨port.info.frequency.tokensPerStep, ?_, ?_⟩
    · rw [step_of_fault running incomplete hfault]
      apply World.send_beat_drained hport _ draws.free
      intro name other hother
      exact (draws.edge_eq hother).elim And.left fun h => absurd h.2 apart
    · rw [step_of_fault running incomplete hfault, hrates]
      apply World.send_beat_drained hport' _ draws.free'
      intro name other hother
      exact (draws.edge_eq hother).elim (fun h => absurd h.2.symm apart) And.left

/-- Inputs of which the edges hold data of the same places are in sync. -/
theorem judge_of_draws (draws : p.core.Draws left right edge edge') {edges : Edges}
    (even : (edges.queue edge).map Stamped.stamp = (edges.queue edge').map Stamped.stamp) :
    p.judge edges ≠ .desync := by
  have hskips : ¬ p.Skips edges := by
    rintro ⟨-, -, name, port, other, name', port', other', token, token', hport, hport', htoken,
      htoken', hne⟩
    -- Whichever of the two edges a head is on, its place is that of the first head there.
    have hplace {name : String} {port : Port} {other : EdgeId}
        (hport : (p.world edges).Requires name port other) :
        ((p.world edges).first? other).map Stamped.stamp =
          ((edges.queue edge).map Stamped.stamp).head? := by
      rcases draws.edge_eq hport with ⟨-, rfl⟩ | ⟨-, rfl⟩
      · exact List.head?_map.symm
      · rw [even]
        exact List.head?_map.symm
    have hsame := (hplace hport).trans (hplace hport').symm
    rw [htoken, htoken'] at hsame
    exact hne (Option.some.inj hsame)
  rw [judge_of_not_skips hskips]
  split
  · nofun
  · nofun

theorem fault_of_judge {edges : Edges} (h : p.judge edges ≠ .desync) :
    p.fault? edges .step ≠ some Fault.desync := by
  rw [fault?]
  by_cases hfit : p.core.state = .initialized ∧ p.core.complete = false
  · rw [if_pos hfit]
    cases hjudge : p.judge edges with
    | step => exact (Option.some_ne_none _).symm
    | desync => exact absurd hjudge h
    | propagate status =>
      -- What is passed on has another message.
      cases status <;> decide
  · rw [if_neg hfit]
    exact (Option.some_ne_none _).symm

/-- Nothing comes of work that is asked of a process that is not running. -/
theorem perform_of_idle (idle : p.core.state ≠ .initialized) (edges : Edges) {command : Command}
    (works : command.Works) : (p.perform edges command).2 = (p, edges) := by
  cases command with
  | step =>
    change (p.step edges).2 = (p, edges)
    rw [step, if_neg idle]
  | reconfigure update =>
    change (p.reconfigure edges update).2 = (p, edges)
    rw [reconfigure, if_neg idle]
  | configure | init | reset | connect _ _ | setType _ _ => exact works.elim

end Process

/-- Two processes that work on one store of edges. -/
structure Duo (σ τ : Type) where
  first : Process σ
  second : Process τ
  edges : Edges

/-- What may happen to two processes: one of them does a step or takes an update, or others do
something to the edges. -/
inductive Move where
  | first (command : Command)
  | second (command : Command)
  | others (edges : Edges)

namespace Duo

variable {σ τ : Type}

def next (d : Duo σ τ) : Move → Duo σ τ
  | .first command =>
    let performed := (d.first.perform d.edges command).2
    { d with first := performed.1, edges := performed.2 }
  | .second command =>
    let performed := (d.second.perform d.edges command).2
    { d with second := performed.1, edges := performed.2 }
  | .others edges => { d with edges }

def after (d : Duo σ τ) (moves : List Move) : Duo σ τ := moves.foldl next d

/-- Two outputs of the first process feed two edges that the second process draws from. The edges
are empty, and both outputs are at the same place. -/
structure Diamond (d : Duo σ τ) (out out' left right : String) (edge edge' : EdgeId) : Prop where
  apart : edge ≠ edge'
  feeds : d.first.core.Feeds out edge
  feeds' : d.first.core.Feeds out' edge'
  draws : d.second.core.Draws left right edge edge'
  stamps_eq : (d.first.world d.edges).nextStamp out = (d.first.world d.edges).nextStamp out'
  empty : d.edges.queue edge = []
  empty' : d.edges.queue edge' = []

/-- Whether a move treats both edges alike as far as hooks go: the step hook of the first process
sends one datum from each output whenever it is run, that of the second one takes as much from the
one edge as from the other, other hooks do nothing of either, and others leave the edges alone. -/
def Fair (d : Duo σ τ) (out out' : String) (edge edge' : EdgeId) : Move → Prop
  | .first .step =>
    d.first.calls d.edges .step ≠ [] →
      ((d.first.plugin.step d.first.memory).posted (d.first.world d.edges) out).length = 1 ∧
        ((d.first.plugin.step d.first.memory).posted (d.first.world d.edges) out').length = 1
  | .second .step =>
    d.second.calls d.edges .step ≠ [] →
      ((d.second.plugin.step d.second.memory).taken (d.second.world d.edges) edge).length =
        ((d.second.plugin.step d.second.memory).taken (d.second.world d.edges) edge').length
  | .first command =>
    command.Works ∧ d.first.posted d.edges command out = [] ∧ d.first.posted d.edges command out' = []
  | .second command =>
    command.Works ∧ d.second.taken d.edges command edge = [] ∧
      d.second.taken d.edges command edge' = []
  | .others edges => edges.queue edge = d.edges.queue edge ∧ edges.queue edge' = d.edges.queue edge'

def AllFair (d : Duo σ τ) (out out' : String) (edge edge' : EdgeId) : List Move → Prop
  | [] => True
  | move :: rest => d.Fair out out' edge edge' move ∧ (d.next move).AllFair out out' edge edge' rest

variable {d : Duo σ τ} {out out' left right : String} {edge edge' : EdgeId}

/-! ## One move -/

/-- What moves keep of a diamond. -/
structure Even (d : Duo σ τ) (out out' left right : String) (edge edge' : EdgeId) : Prop where
  apart : edge ≠ edge'
  feeds : d.first.core.Feeds out edge
  feeds' : d.first.core.Feeds out' edge'
  draws : d.second.core.Draws left right edge edge'
  stamps_eq : (d.first.world d.edges).nextStamp out = (d.first.world d.edges).nextStamp out'
  queues_eq : (d.edges.queue edge).map Stamped.stamp = (d.edges.queue edge').map Stamped.stamp

theorem Diamond.even (h : d.Diamond out out' left right edge edge') :
    d.Even out out' left right edge edge' where
  apart := h.apart
  feeds := h.feeds
  feeds' := h.feeds'
  draws := h.draws
  stamps_eq := h.stamps_eq
  queues_eq := by
    rw [h.empty, h.empty']

theorem Fair.works_first {command : Command} (fair : d.Fair out out' edge edge' (.first command)) :
    command.Works := by
  cases command with
  | step => trivial
  | configure | init | reset | reconfigure _ | connect _ _ | setType _ _ => exact fair.1

theorem Fair.works_second {command : Command} (fair : d.Fair out out' edge edge' (.second command)) :
    command.Works := by
  cases command with
  | step => trivial
  | configure | init | reset | reconfigure _ | connect _ _ | setType _ _ => exact fair.1

theorem Even.length_posted (h : d.Even out out' left right edge edge')
    (hout : out ≠ Core.heartbeat) (hout' : out' ≠ Core.heartbeat)
    (running : d.first.core.state = .initialized) {command : Command}
    (fair : d.Fair out out' edge edge' (.first command)) :
    (d.first.posted d.edges command out).length = (d.first.posted d.edges command out').length := by
  cases command with
  | step =>
    obtain ⟨port, hport, -⟩ := h.feeds.bound
    obtain ⟨port', hport', -⟩ := h.feeds'.bound
    refine Process.length_posted_step running d.edges hout hout' (hport ▸ rfl) (hport' ▸ rfl) ?_
    intro hcalls
    exact (fair hcalls).1.trans (fair hcalls).2.symm
  | configure | init | reset | reconfigure _ | connect _ _ | setType _ _ =>
    exact (congrArg List.length fair.2.1).trans (congrArg List.length fair.2.2).symm

theorem Even.first (h : d.Even out out' left right edge edge') (hout : out ≠ Core.heartbeat)
    (hout' : out' ≠ Core.heartbeat) {command : Command}
    (fair : d.Fair out out' edge edge' (.first command)) :
    (d.next (.first command)).Even out out' left right edge edge' := by
  by_cases running : d.first.core.state = .initialized
  · have noReset := fair.works_first.noReset
    have frozen := Process.perform_frozen running d.edges noReset
    -- Both outputs send equally many data, from the same place on.
    have hsent := h.length_posted hout hout' running fair
    obtain ⟨hqueue, hstamp⟩ := Process.perform_of_feeds h.feeds running noReset d.edges
    obtain ⟨hqueue', hstamp'⟩ := Process.perform_of_feeds h.feeds' running noReset d.edges
    constructor
    · exact h.apart
    · exact h.feeds.frozen frozen
    · exact h.feeds'.frozen frozen
    · exact h.draws
    · apply hstamp.trans
      rw [h.stamps_eq, hsent]
      exact hstamp'.symm
    · apply hqueue.trans
      rw [h.queues_eq, h.stamps_eq, hsent]
      exact hqueue'.symm
  · have hidle := Process.perform_of_idle running d.edges fair.works_first
    dsimp only [Duo.next]
    rw [hidle]
    exact h

theorem Even.drop (h : d.Even out out' left right edge edge')
    (running : d.second.core.state = .initialized) {command : Command}
    (fair : d.Fair out out' edge edge' (.second command)) :
    ∃ count, (d.second.perform d.edges command).2.2.queue edge = (d.edges.queue edge).drop count ∧
      (d.second.perform d.edges command).2.2.queue edge' = (d.edges.queue edge').drop count := by
  -- Other hooks than that of the step take nothing at all.
  have hkept (works : command.Works) {other : EdgeId} (free : ∀ name port,
      d.second.core.port? (.output name) = some port → other ∉ port.edges)
      (htaken : d.second.taken d.edges command other = []) :
      (d.second.perform d.edges command).2.2.queue other = (d.edges.queue other).drop 0 := by
    rw [Process.perform_queue_of_free works.noReset running free, htaken]
    rfl
  cases command with
  | step => exact Process.step_of_draws h.draws h.apart running d.edges fair
  | configure | init | reset | reconfigure _ | connect _ _ | setType _ _ =>
    obtain ⟨works, htaken, htaken'⟩ := fair
    exact ⟨0, hkept works h.draws.free htaken, hkept works h.draws.free' htaken'⟩

theorem Even.second (h : d.Even out out' left right edge edge') {command : Command}
    (fair : d.Fair out out' edge edge' (.second command)) :
    (d.next (.second command)).Even out out' left right edge edge' := by
  by_cases running : d.second.core.state = .initialized
  · have frozen := Process.perform_frozen running d.edges fair.works_second.noReset
    obtain ⟨count, hqueue, hqueue'⟩ := h.drop running fair
    constructor
    · exact h.apart
    · exact h.feeds
    · exact h.feeds'
    · exact h.draws.frozen frozen
    · exact h.stamps_eq
    · change ((d.second.perform d.edges command).2.2.queue edge).map _ =
        ((d.second.perform d.edges command).2.2.queue edge').map _
      rw [hqueue, hqueue', List.map_drop, List.map_drop, h.queues_eq]
  · have hidle := Process.perform_of_idle running d.edges fair.works_second
    dsimp only [Duo.next]
    rw [hidle]
    exact h

theorem Even.next (h : d.Even out out' left right edge edge') (hout : out ≠ Core.heartbeat)
    (hout' : out' ≠ Core.heartbeat) {move : Move} (fair : d.Fair out out' edge edge' move) :
    (d.next move).Even out out' left right edge edge' := by
  cases move with
  | first command => exact h.first hout hout' fair
  | second command => exact h.second fair
  | others edges =>
    refine { h with queues_eq := ?_ }
    change (edges.queue edge).map _ = (edges.queue edge').map _
    rw [fair.1, fair.2]
    exact h.queues_eq

theorem Even.after (h : d.Even out out' left right edge edge') (hout : out ≠ Core.heartbeat)
    (hout' : out' ≠ Core.heartbeat) {moves : List Move}
    (fair : d.AllFair out out' edge edge' moves) :
    (d.after moves).Even out out' left right edge edge' := by
  -- Each move keeps the edges even, so the induction is on the moves.
  induction moves generalizing d with
  | nil => exact h
  | cons move rest ih => exact ih (h.next hout hout' fair.1) fair.2

/-- Neither output being the heartbeat, the two edges of a diamond hold data of the same places after
any moves. So the second process never finds its inputs out of sync. -/
theorem diamond_even (h : d.Diamond out out' left right edge edge') (hout : out ≠ Core.heartbeat)
    (hout' : out' ≠ Core.heartbeat) {moves : List Move}
    (fair : d.AllFair out out' edge edge' moves) :
    let after := d.after moves
    (after.edges.queue edge).map Stamped.stamp = (after.edges.queue edge').map Stamped.stamp ∧
      after.second.judge after.edges ≠ .desync ∧
      after.second.fault? after.edges .step ≠ some Fault.desync := by
  intro after
  have heven : after.Even out out' left right edge edge' := h.even.after hout hout' fair
  have hjudge := Process.judge_of_draws heven.draws heven.queues_eq
  exact ⟨heven.queues_eq, hjudge, Process.fault_of_judge hjudge⟩

/-! ## A fork and its join -/

/-- What a required input is known by. -/
def neededInput : PortInfo := ⟨.any, .ofList [.required], "", .one⟩

def plainOutput : PortInfo := ⟨.any, .empty, "", .one⟩

/-- A plugin that sends a datum from two outputs for every one that it takes. -/
def fork (out out' : String) : Plugin Unit :=
  { Plugin.idle Unit with
    declare := do
      Reaction.request (.declare (.input "in") neededInput)
      Reaction.request (.declare (.output "upper") plainOutput)
      Reaction.request (.declare (.output "lower") plainOutput)
    step := do
      let _ ← Reaction.request (.grab "in")
      Reaction.request (.push out .empty)
      Reaction.request (.push out' .empty) }

/-- A plugin that takes a datum from each of two inputs. -/
def join : Plugin Unit :=
  { Plugin.idle Unit with
    declare := do
      Reaction.request (.declare (.input "left") neededInput)
      Reaction.request (.declare (.input "right") neededInput)
    step := do
      let _ ← Reaction.request (.grab "left")
      let _ ← Reaction.request (.grab "right") }

def joining : Process Unit :=
  (Process.create ∅ join () .empty).2.1.follow
    [(.empty, .configure), (.empty, .connect (.input "left") (some ⟨0⟩)),
     (.empty, .connect (.input "right") (some ⟨1⟩)), (.empty, .init)]

/-- A fork with data for one step, and a join. -/
def forkJoin (out out' : String) : Duo Unit Unit where
  first := (Process.create ∅ (fork out out') () .empty).2.1.follow
    [(.empty, .configure), (.empty, .connect (.input "in") (some ⟨2⟩)),
     (.empty, .connect (.output out) (some ⟨0⟩)), (.empty, .connect (.output out') (some ⟨1⟩)),
     (.empty, .init)]
  second := joining
  edges := Edges.empty.push ⟨2⟩ ⟨.first, .payload (.scalar (.bool true))⟩

theorem joining_draws : joining.core.Draws "left" "right" ⟨0⟩ ⟨1⟩ := by
  have hleft : joining.core.port? (.input "left") = some ⟨.any, neededInput, [⟨0⟩], .first⟩ := by
    decide +kernel
  have hright : joining.core.port? (.input "right") = some ⟨.any, neededInput, [⟨1⟩], .first⟩ := by
    decide +kernel
  have honly : ∀ entry ∈ joining.core.ports.toList, entry.1.direction = .input →
      entry.1.name = "left" ∨ entry.1.name = "right" := by
    decide +kernel
  have hfree : ∀ entry ∈ joining.core.ports.toList, entry.1.direction = .output →
      entry.2.edges = [] := by
    decide +kernel
  constructor
  · exact ⟨_, _, ⟨hleft, rfl, rfl⟩, ⟨hright, rfl, rfl⟩, rfl⟩
  · intro name port other hport
    exact honly _ (Core.mem_ports hport.declared) rfl
  all_goals
    intro name port hport
    rw [hfree _ (Core.mem_ports hport) rfl]
    exact List.not_mem_nil

theorem forkJoin_diamond :
    (forkJoin "upper" "lower").Diamond "upper" "lower" "left" "right" ⟨0⟩ ⟨1⟩ where
  apart := by
    decide
  feeds := Core.feeds_of_ports (by decide +kernel) (by decide +kernel)
  feeds' := Core.feeds_of_ports (by decide +kernel) (by decide +kernel)
  draws := joining_draws
  stamps_eq := by
    decide +kernel
  empty := by
    decide +kernel
  empty' := by
    decide +kernel

/-- The fork has a datum for its first step only. The other one passes it over. -/
theorem diamond_even_forkJoin :
    (forkJoin "upper" "lower").Diamond "upper" "lower" "left" "right" ⟨0⟩ ⟨1⟩ ∧
      (forkJoin "upper" "lower").AllFair "upper" "lower" ⟨0⟩ ⟨1⟩
        [.first .step, .first .step, .second .step] ∧
      let after := (forkJoin "upper" "lower").after [.first .step, .first .step, .second .step]
      (after.edges.queue ⟨0⟩).map Stamped.stamp = [1] ∧
        (after.edges.queue ⟨1⟩).map Stamped.stamp = [1] ∧ after.second.judge after.edges ≠ .desync := by
  have fair : (forkJoin "upper" "lower").AllFair "upper" "lower" ⟨0⟩ ⟨1⟩
      [.first .step, .first .step, .second .step] := by
    refine ⟨fun _ => ⟨?_, ?_⟩, fun hcalls => absurd ?_ hcalls, fun _ => ?_, trivial⟩
    all_goals decide +kernel
  have hupper : (((forkJoin "upper" "lower").after
      [.first .step, .first .step, .second .step]).edges.queue ⟨0⟩).map Stamped.stamp = [1] := by
    decide +kernel
  obtain ⟨hsame, hjudge, -⟩ := diamond_even forkJoin_diamond (by decide) (by decide) fair
  exact ⟨forkJoin_diamond, fair, hupper, hsame.symm.trans hupper, hjudge⟩

/-- If the heartbeat is one of the outputs, a step of the fork sends one datum more from it: its
report. -/
theorem diamond_uneven :
    (forkJoin Core.heartbeat "lower").Diamond Core.heartbeat "lower" "left" "right" ⟨0⟩ ⟨1⟩ ∧
      (forkJoin Core.heartbeat "lower").AllFair Core.heartbeat "lower" ⟨0⟩ ⟨1⟩ [.first .step] ∧
      (forkJoin Core.heartbeat "lower").first.core.state = .initialized ∧
      (forkJoin Core.heartbeat "lower").second.core.state = .initialized ∧
      (forkJoin Core.heartbeat "lower").second.core.level = .valid ∧
      ((forkJoin Core.heartbeat "lower").first.step
        (forkJoin Core.heartbeat "lower").edges).1.isOk = true ∧
      let after := (forkJoin Core.heartbeat "lower").after [.first .step]
      (after.edges.queue ⟨0⟩).map Stamped.stamp = [0, 1] ∧
        (after.edges.queue ⟨1⟩).map Stamped.stamp = [0] := by
  have diamond :
      (forkJoin Core.heartbeat "lower").Diamond Core.heartbeat "lower" "left" "right" ⟨0⟩ ⟨1⟩ := by
    constructor
    · decide
    · exact Core.feeds_of_ports (by decide +kernel) (by decide +kernel)
    · exact Core.feeds_of_ports (by decide +kernel) (by decide +kernel)
    · exact joining_draws
    all_goals decide +kernel
  have fair : (forkJoin Core.heartbeat "lower").AllFair Core.heartbeat "lower" ⟨0⟩ ⟨1⟩
      [.first .step] := by
    refine ⟨fun _ => ⟨?_, ?_⟩, trivial⟩
    all_goals decide +kernel
  refine ⟨diamond, fair, ?_, ?_, ?_, ?_, ?_, ?_⟩
  all_goals decide +kernel

end Duo

end Dataflow
