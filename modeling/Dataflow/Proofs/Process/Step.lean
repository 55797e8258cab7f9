import Dataflow.Proofs.Core.Touch
import Dataflow.Proofs.Process.Heads

/-!
# What one step does

If the check finds fault with the heads, the plugin is passed over: one datum goes out of every
output in place of results, and every required input loses what a step would have taken. Otherwise
the step is the plugin's. Either way a step that does not fail is reported on the heartbeat, once.
`step_meaning` says this of every port and of every edge.
-/

namespace Dataflow

/-- The datum by which a step is reported. -/
def heartbeatDatum (complete : Bool) : Datum := if complete then .complete else .empty

/-- The datum by which a step passes the plugin over, and whether it completes the process. -/
def Verdict.fault? : Verdict → Option (Datum × Bool)
  | .step => none
  | .desync => some (Fault.desync, false)
  | .propagate status => some (Fault.ofStatus status, status = .complete)

theorem Verdict.fault?_of_ne_step {verdict : Verdict} (h : verdict ≠ .step) :
    ∃ datum complete, verdict.fault? = some (datum, complete) := by
  cases verdict with
  | step => exact absurd rfl h
  | desync | propagate status => exact ⟨_, _, rfl⟩

namespace Core

/-- Whether no two ports share an edge, and no output has one twice. -/
structure Apart (c : Core) : Prop where
  inputs : ∀ {name name' port port' edge}, c.port? (.input name) = some port →
    c.port? (.input name') = some port' → edge ∈ port.edges → edge ∈ port'.edges → name = name'
  crossed : ∀ {name name' port port' edge}, c.port? (.input name) = some port →
    c.port? (.output name') = some port' → edge ∈ port.edges → edge ∉ port'.edges
  outputs : ∀ {name name' port port' edge}, c.port? (.output name) = some port →
    c.port? (.output name') = some port' → edge ∈ port.edges → edge ∈ port'.edges → name = name'
  once : ∀ {name port}, c.port? (.output name) = some port → port.edges.Nodup

/-- Whether ports are apart can be told from the table of ports. -/
theorem apart_of_ports {c : Core}
    (alone : ∀ entry ∈ c.ports.toList, ∀ other ∈ c.ports.toList, ∀ edge ∈ entry.2.edges,
      edge ∈ other.2.edges → entry.1 = other.1)
    (once : ∀ entry ∈ c.ports.toList, entry.2.edges.Nodup) : c.Apart where
  inputs h h' hedge hedge' :=
    congrArg PortKey.name (alone _ (mem_ports h) _ (mem_ports h') _ hedge hedge')
  crossed h h' hedge hedge' :=
    nomatch congrArg PortKey.direction (alone _ (mem_ports h) _ (mem_ports h') _ hedge hedge')
  outputs h h' hedge hedge' :=
    congrArg PortKey.name (alone _ (mem_ports h) _ (mem_ports h') _ hedge hedge')
  once h := once _ (mem_ports h)

theorem sent_of_bound {c : Core} (apart : c.Apart) {name : String} {port : Port} {edge : EdgeId}
    (hport : c.port? (.output name) = some port) (hedge : edge ∈ port.edges) (datum : Datum) :
    c.sent datum edge name = [⟨port.stamp, datum⟩] := by
  rw [sent, hport]
  dsimp only
  rw [(apart.once hport).count, if_pos hedge, List.replicate_one]

theorem sent_of_other {c : Core} (apart : c.Apart) {name other : String} {port : Port}
    {edge : EdgeId} (hport : c.port? (.output name) = some port) (hedge : edge ∈ port.edges)
    (hne : other ≠ name) (datum : Datum) : c.sent datum edge other = [] :=
  sent_of_free (fun _ hother hmem => hne (apart.outputs hother hport hmem hedge)) datum

end Core

namespace World

/-! ## Where a datum arrives -/

theorem mem_outlets {w : World} {name : String} :
    name ∈ w.outlets ↔ (∃ port, w.core.port? (.output name) = some port) ∧ name ≠ Core.heartbeat := by
  rw [outlets, List.mem_filter, decide_eq_true_eq]
  exact and_congr_left' Core.mem_portNames

theorem outlets_sent_of_bound {w : World} (apart : w.core.Apart) {name : String} {port : Port}
    {edge : EdgeId} (hport : w.core.port? (.output name) = some port)
    (hname : name ≠ Core.heartbeat) (hedge : edge ∈ port.edges) (datum : Datum) :
    w.outlets.flatMap (w.core.sent datum edge) = [⟨port.stamp, datum⟩] := by
  have hmem : name ∈ w.outlets := mem_outlets.mpr ⟨⟨port, hport⟩, hname⟩
  obtain ⟨before, behind, hsplit⟩ := List.append_of_mem hmem
  have hnodup := w.nodup_outlets
  rw [hsplit] at hnodup ⊢
  -- The one output that has the edge stands between others that do not.
  have hnil (names : List String) (hnot : name ∉ names) :
      names.flatMap (w.core.sent datum edge) = [] :=
    List.flatMap_eq_nil_iff.mpr fun other hother =>
      Core.sent_of_other apart hport hedge (fun h => hnot (h ▸ hother)) datum
  have hbefore : name ∉ before := fun h =>
    (List.nodup_append.mp hnodup).2.2 name h name List.mem_cons_self rfl
  have hbehind : name ∉ behind :=
    (List.nodup_cons.mp (List.nodup_append.mp hnodup).2.1).1
  rw [List.flatMap_append, List.flatMap_cons, hnil before hbefore, hnil behind hbehind,
    Core.sent_of_bound apart hport hedge, List.append_nil, List.nil_append]

theorem outlets_sent_of_free {w : World} {edge : EdgeId}
    (h : ∀ name port, name ≠ Core.heartbeat → w.core.port? (.output name) = some port →
      edge ∉ port.edges) (datum : Datum) :
    w.outlets.flatMap (w.core.sent datum edge) = [] :=
  List.flatMap_eq_nil_iff.mpr fun name hname =>
    Core.sent_of_free (fun port => h name port (mem_outlets.mp hname).2) datum

/-! ## What a drain finds -/

theorem inputEdge?_of_requires {w : World} {name : String} {port : Port} {edge : EdgeId}
    (h : w.Requires name port edge) : w.inputEdge? name = some edge := by
  rw [inputEdge?, h.declared, Option.bind_some, h.bound]

theorem headsOn_of_requires {w : World} {name : String} {port : Port} {edge : EdgeId}
    (h : w.Requires name port edge)
    (alone : ∀ {name' port'}, w.Requires name' port' edge → name' = name) :
    w.headsOn w.requiredHeads edge = [w.headAt name port edge] := by
  have honly : ∀ head ∈ w.requiredHeads,
      decide (w.inputEdge? head.port = some edge) = decide (head = w.headAt name port edge) := by
    intro head hhead
    obtain ⟨name', port', edge', h', rfl⟩ := mem_requiredHeads.mp hhead
    rw [headAt, inputEdge?_of_requires h', decide_eq_decide, Option.some.injEq]
    constructor
    · rintro rfl
      -- An edge leads to one input only, hence to one port.
      obtain rfl := alone h'
      rw [headAt, Option.some.inj (h'.declared.symm.trans h.declared)]
    · intro hsame
      obtain rfl : name' = name := congrArg Head.port hsame
      obtain rfl := Option.some.inj (h'.declared.symm.trans h.declared)
      exact Option.some.inj (h'.bound.symm.trans h.bound)
  rw [headsOn, List.filter_congr honly, List.filter_eq, w.nodup_requiredHeads.count,
    if_pos (mem_requiredHeads.mpr ⟨name, port, edge, h, rfl⟩), List.replicate_one]

theorem headsOn_of_free {w : World} {edge : EdgeId}
    (h : ∀ name port, ¬ w.Requires name port edge) : w.headsOn w.requiredHeads edge = [] := by
  rw [headsOn, List.filter_eq_nil_iff]
  intro head hhead
  obtain ⟨name, port, edge', hrequires, rfl⟩ := mem_requiredHeads.mp hhead
  rw [headAt, inputEdge?_of_requires hrequires, decide_eq_true_eq, Option.some.injEq]
  rintro rfl
  exact h name port hrequires

/-! ## A fault in place of results -/

/-- What a step leaves behind if a fault goes to the outputs in place of results. -/
structure Faulted (w : World) (datum : Datum) (complete : Bool) (after : World) : Prop where
  core_eq : after.core = { w.core.advance fun _ => true with complete }
  sent : ∀ {name port edge}, w.core.port? (.output name) = some port → name ≠ Core.heartbeat →
    edge ∈ port.edges → after.edges.queue edge = w.edges.queue edge ++ [⟨port.stamp, datum⟩]
  reported : ∀ {port edge}, w.core.port? (.output Core.heartbeat) = some port →
    edge ∈ port.edges →
    after.edges.queue edge = w.edges.queue edge ++ [⟨port.stamp, heartbeatDatum complete⟩]
  drained : ∀ {name port edge}, w.Requires name port edge → ∃ removed,
    w.edges.queue edge = removed ++ after.edges.queue edge ∧
      removed.length = min (w.edges.queue edge).length port.info.frequency.tokensPerStep
  untouched : ∀ {edge}, (∀ name port, w.core.port? (.output name) = some port → edge ∉ port.edges) →
    (∀ name port, ¬ w.Requires name port edge) → after.edges.queue edge = w.edges.queue edge
  fresh_eq : after.edges.fresh = w.edges.fresh

theorem beat_core (w : World) : w.beat.core = w.core.advance (· = Core.heartbeat) := push_core w _ _

theorem beat_queue (w : World) (edge : EdgeId) :
    w.beat.edges.queue edge =
      w.edges.queue edge ++ w.core.sent (heartbeatDatum w.core.complete) edge Core.heartbeat :=
  push_queue w _ _ edge

theorem beat_fresh (w : World) : w.beat.edges.fresh = w.edges.fresh := push_fresh w _ _

theorem inputEdge?_pushToAll (w : World) (datum : Datum) :
    (w.pushToAll datum).inputEdge? = w.inputEdge? := by
  funext name
  rw [inputEdge?, inputEdge?, pushToAll_core, Core.port?_advance]
  cases w.core.port? (.input name) with
  | none => rfl
  | some port => rfl

theorem send_core (w : World) (datum : Datum) (heads : List Head) :
    (Fault.send w datum heads).core = w.core.advance (· ≠ Core.heartbeat) := by
  rw [Fault.send, drainStep_core, pushToAll_core]

/-- A faulty step moves every stamp on by one: that of the heartbeat with the report. -/
theorem send_beat_core (w : World) (complete : Bool) (datum : Datum) (heads : List Head) :
    (Fault.send { w with core := { w.core with complete } } datum heads).beat.core =
      { w.core.advance fun _ => true with complete } := by
  rw [beat_core, send_core]
  apply Core.eq_of_port? rfl
  intro key
  change _ = (w.core.advance fun _ => true).port? key
  rw [Core.port?_advance, Core.port?_advance, Core.port?_advance, Option.map_map]
  congr 1
  funext port
  by_cases hname : key.name = Core.heartbeat <;> simp [hname]

/-- A faulty step adds to an edge what its output sends, and takes from it what its input loses. -/
theorem send_beat_queue (w : World) (complete : Bool) (datum : Datum) (edge : EdgeId) :
    (Fault.send { w with core := { w.core with complete } } datum
        w.requiredHeads).beat.edges.queue edge =
      (w.edges.queue edge ++ w.outlets.flatMap (w.core.sent datum edge)).drop
          (tokensOf (w.headsOn w.requiredHeads edge)) ++
        w.core.sent (heartbeatDatum complete) edge Core.heartbeat := by
  rw [beat_queue, send_core, Core.sent_advance (decide_eq_false (· rfl)), Fault.send,
    drainStep_queue, pushToAll_queue, headsOn, inputEdge?_pushToAll]
  rfl

/-- A required input whose edge it has for itself loses what a step would have taken. -/
theorem send_beat_drained {w : World} {name : String} {port : Port} {edge : EdgeId}
    (h : w.Requires name port edge)
    (alone : ∀ {name' port'}, w.Requires name' port' edge → name' = name)
    (free : ∀ name' port', w.core.port? (.output name') = some port' → edge ∉ port'.edges)
    (complete : Bool) (datum : Datum) :
    (Fault.send { w with core := { w.core with complete } } datum
        w.requiredHeads).beat.edges.queue edge =
      (w.edges.queue edge).drop port.info.frequency.tokensPerStep := by
  rw [send_beat_queue, outlets_sent_of_free fun name' port' _ => free name' port',
    Core.sent_of_free (free Core.heartbeat), headsOn_of_requires h alone, List.append_nil,
    List.append_nil]
  rfl

theorem faulted_send {w : World} (apart : w.core.Apart) (datum : Datum) (complete : Bool) :
    w.Faulted datum complete
      (Fault.send { w with core := { w.core with complete } } datum w.requiredHeads).beat where
  core_eq := w.send_beat_core complete datum w.requiredHeads
  sent {name port edge} hport hname hedge := by
    rw [send_beat_queue, outlets_sent_of_bound apart hport hname hedge, headsOn_of_free,
      Core.sent_of_other apart hport hedge (Ne.symm hname), List.append_nil]
    · rfl
    · intro name' port' h
      exact apart.crossed h.declared hport (List.mem_of_head? h.bound) hedge
  reported {port edge} hport hedge := by
    rw [send_beat_queue, outlets_sent_of_free, headsOn_of_free,
      Core.sent_of_bound apart hport hedge, List.append_nil]
    · rfl
    · intro name port' h
      exact apart.crossed h.declared hport (List.mem_of_head? h.bound) hedge
    · intro name port' hname hport' hedge'
      exact hname (apart.outputs hport' hport hedge' hedge)
  drained {name port edge} h := by
    have halone {name' : String} {port' : Port} (h' : w.Requires name' port' edge) : name' = name :=
      apart.inputs h'.declared h.declared (List.mem_of_head? h'.bound) (List.mem_of_head? h.bound)
    rw [send_beat_drained h halone fun name' port' hport' =>
      apart.crossed h.declared hport' (List.mem_of_head? h.bound)]
    exact ⟨(w.edges.queue edge).take port.info.frequency.tokensPerStep,
      (List.take_append_drop _ _).symm, by rw [List.length_take, Nat.min_comm]⟩
  untouched {edge} hfree hrequires := by
    rw [send_beat_queue, outlets_sent_of_free fun name port _ => hfree name port,
      Core.sent_of_free (hfree Core.heartbeat), headsOn_of_free hrequires, List.append_nil,
      List.append_nil]
    rfl
  fresh_eq := by
    rw [beat_fresh, Fault.send, drainStep_fresh, pushToAll_fresh]

/-! ## The report -/

/-- What the report of a step leaves behind. -/
structure Reported (w after : World) : Prop where
  core_eq : after.core = w.core.advance (· = Core.heartbeat)
  sent : ∀ {port edge}, w.core.port? (.output Core.heartbeat) = some port → edge ∈ port.edges →
    after.edges.queue edge = w.edges.queue edge ++ [⟨port.stamp, heartbeatDatum w.core.complete⟩]
  untouched : ∀ {edge}, (∀ port, w.core.port? (.output Core.heartbeat) = some port →
    edge ∉ port.edges) → after.edges.queue edge = w.edges.queue edge
  fresh_eq : after.edges.fresh = w.edges.fresh

theorem reported_beat {w : World}
    (once : ∀ port, w.core.port? (.output Core.heartbeat) = some port → port.edges.Nodup) :
    w.Reported w.beat where
  core_eq := w.beat_core
  sent {port edge} hport hedge := by
    -- An edge gets one datum for each time it is bound.
    rw [beat_queue, Core.sent, hport]
    dsimp only
    rw [(once port hport).count, if_pos hedge, List.replicate_one]
  untouched hfree := by
    rw [beat_queue, Core.sent_of_free hfree, List.append_nil]
  fresh_eq := w.beat_fresh

end World

namespace Process

variable {σ : Type}

/-! ## The verdict -/

/-- Whether the heads are checked for their places, and found out of sync. -/
def Skips (p : Process σ) (edges : Edges) : Prop :=
  p.core.level ≠ .none ∧ (p.plugin.properties p.memory).contains .unsyncInput = false ∧
    (p.world edges).OutOfSync

theorem skips_iff (p : Process σ) (edges : Edges) :
    p.Skips edges ↔ p.core.level ≠ .none ∧ (!p.properties.contains .unsyncInput) = true ∧
      inSync (p.world edges).requiredHeads = false := by
  rw [Skips, World.inSync_requiredHeads]
  -- At any level but the laxest it is only the plugin that can waive the check.
  refine and_congr_right fun hlevel => and_congr_left' ?_
  rw [properties, if_neg hlevel, Bool.not_eq_true']

theorem judge_of_skips {p : Process σ} {edges : Edges} (h : p.Skips edges) :
    p.judge edges = .desync := by
  rw [judge, verdict_eq, if_pos ((p.skips_iff edges).mp h)]

theorem judge_of_not_skips {p : Process σ} {edges : Edges} (h : ¬ p.Skips edges) :
    p.judge edges =
      if p.core.level = .valid ∧ worstStatus (p.world edges).requiredHeads ≠ .data then
        .propagate (worstStatus (p.world edges).requiredHeads)
      else .step := by
  rw [judge, verdict_eq, if_neg (fun hc => h ((p.skips_iff edges).mpr hc))]

/-! ## The step -/

theorem step_of_act {p : Process σ} {edges : Edges} (running : p.core.state = .initialized)
    (incomplete : p.core.complete = false) :
    p.step edges = match p.act edges with
      | (.error e, after) => (.error e, after)
      | (.ok (), p, edges) => (.ok (), p.inWorld (p.world edges).beat) := by
  rw [step, if_pos running, incomplete, if_neg Bool.false_ne_true]
  rfl

/-- A step that finds fault sends its datum and reports it. -/
theorem step_of_fault {p : Process σ} {edges : Edges} (running : p.core.state = .initialized)
    (incomplete : p.core.complete = false) {datum : Datum} {complete : Bool}
    (h : (p.judge edges).fault? = some (datum, complete)) :
    p.step edges = (.ok (), p.inWorld (Fault.send
      { p.world edges with core := { p.core with complete } } datum
      (p.world edges).requiredHeads).beat) := by
  rw [step_of_act running incomplete, act]
  cases hjudge : p.judge edges with
  | step =>
    rw [hjudge] at h
    exact nomatch h
  | desync =>
    rw [hjudge] at h
    obtain ⟨rfl, rfl⟩ := Prod.mk.inj (Option.some.inj h)
    rw [← incomplete]
    rfl
  | propagate status =>
    rw [hjudge] at h
    obtain ⟨rfl, rfl⟩ := Prod.mk.inj (Option.some.inj h)
    dsimp only
    by_cases hstatus : status = .complete
    · rw [if_pos hstatus, decide_eq_true hstatus]
      rfl
    · rw [if_neg hstatus, decide_eq_false hstatus, ← incomplete]
      rfl

theorem step_of_skips {p : Process σ} {edges : Edges} (running : p.core.state = .initialized)
    (incomplete : p.core.complete = false) (h : p.Skips edges) :
    p.step edges = (.ok (), p.inWorld (Fault.send
      { p.world edges with core := { p.core with complete := false } }
      Fault.desync (p.world edges).requiredHeads).beat) :=
  step_of_fault running incomplete (congrArg Verdict.fault? (judge_of_skips h))

theorem step_of_propagate {p : Process σ} {edges : Edges} (running : p.core.state = .initialized)
    (incomplete : p.core.complete = false) {status : Status}
    (h : p.judge edges = .propagate status) :
    p.step edges = (.ok (), p.inWorld (Fault.send
      { p.world edges with core := { p.core with complete := status = .complete } }
      (Fault.ofStatus status) (p.world edges).requiredHeads).beat) :=
  step_of_fault running incomplete (congrArg Verdict.fault? h)

theorem status_ofStatus (status : Status) : (Fault.ofStatus status).status = status := by
  cases status <;> rfl

/-- A step hook leaves the wiring as it is. -/
theorem react_frozen {α : Type} {p after : Process σ} {edges edges' : Edges} {hook : Reaction σ α}
    {result : Except ProcessError α} (running : p.core.state = .initialized)
    (h : p.react edges hook = (result, after, edges')) : p.core.Frozen after.core := by
  have hfrozen := Hook.run_frozen (hook p.memory) (p.world edges) running
  rw [show after.core = (Hook.run (hook p.memory) (p.world edges)).2.core from
    congrArg (fun attempt => attempt.2.1.core) h.symm]
  exact hfrozen

/-- What a step of a process does that is not complete. Heads out of sync come first, then the
gravest status, and only then the plugin. -/
theorem step_meaning (p : Process σ) (edges : Edges) (running : p.core.state = .initialized)
    (incomplete : p.core.complete = false) (apart : p.core.Apart) :
    ∃ gravest, (∀ status, (p.world edges).Gravest status ↔ status = gravest) ∧
      (p.Skips edges →
        ∃ after, p.step edges = (.ok (), p.inWorld after) ∧
          (p.world edges).Faulted Fault.desync false after) ∧
      (¬ p.Skips edges → p.core.level = .valid → gravest ≠ .data →
        ∃ after, p.step edges = (.ok (), p.inWorld after) ∧
          (Fault.ofStatus gravest).status = gravest ∧
          (p.world edges).Faulted (Fault.ofStatus gravest) (gravest = .complete) after) ∧
      (¬ p.Skips edges → (p.core.level = .valid → gravest = .data) →
        (∀ e p' edges', p.react edges p.plugin.step = (.error e, p', edges') →
          p.step edges = (.error e, p', edges')) ∧
        ∀ p' edges', p.react edges p.plugin.step = (.ok (), p', edges') →
          p.core.Frozen p'.core ∧
            ∃ after, p.step edges = (.ok (), p'.inWorld after) ∧
              (p'.world edges').Reported after) := by
  refine ⟨_, fun _ => World.gravest_iff, ?_, ?_, ?_⟩
  · intro hskips
    exact ⟨_, step_of_skips running incomplete hskips, World.faulted_send apart _ _⟩
  · intro hskips hvalid hgrave
    have hjudge := judge_of_not_skips hskips
    rw [if_pos ⟨hvalid, hgrave⟩] at hjudge
    exact ⟨_, step_of_propagate running incomplete hjudge, status_ofStatus _,
      World.faulted_send apart _ _⟩
  · intro hskips hfine
    have hjudge := judge_of_not_skips hskips
    rw [if_neg (fun h => h.2 (hfine h.1))] at hjudge
    have hact : p.act edges = p.react edges p.plugin.step := by
      rw [act, hjudge]
    constructor
    · intro e p' edges' hreact
      rw [step_of_act running incomplete, hact, hreact]
    · intro p' edges' hreact
      have hfrozen := react_frozen running hreact
      refine ⟨hfrozen, _, ?_, World.reported_beat fun port hport => ?_⟩
      · rw [step_of_act running incomplete, hact, hreact]
      · -- The hook cannot have bound the heartbeat anew.
        have hedges := hfrozen.edges_eq (.output Core.heartbeat)
        change p'.core.port? (.output Core.heartbeat) = some port at hport
        rw [hport, Option.map_some, eq_comm] at hedges
        obtain ⟨port', hport', hsame⟩ := Option.map_eq_some_iff.mp hedges
        exact hsame ▸ apart.once hport'

/-- An input or an output that has sent nothing so far, with its edge. -/
def wired (flags : List Flag) (edge : EdgeId) : Port :=
  ⟨.any, ⟨.any, .ofList flags, "", .one⟩, [edge], .first⟩

/-- An initialized process with two required inputs. -/
def straggler : Process Unit where
  core := { Core.bare ∅ with
    state := .initialized
    ports := (((Std.ExtTreeMap.insert ∅ (.input "left") (wired [.required] ⟨0⟩)).insert
      (.input "right") (wired [.required] ⟨1⟩)).insert (.output "out") (wired [] ⟨2⟩)).insert
      (.output Core.heartbeat) (wired [] ⟨3⟩) }
  plugin := .idle Unit
  memory := ()

/-- Heads of two places. -/
def straggling : Edges :=
  (Edges.empty.push ⟨0⟩ ⟨.first, .empty⟩).push ⟨1⟩ ⟨Stamp.next .first, .empty⟩

theorem straggler_port? (key : PortKey) :
    straggler.core.port? key =
      if key = .output Core.heartbeat then some (wired [] ⟨3⟩)
      else if key = .output "out" then some (wired [] ⟨2⟩)
      else if key = .input "right" then some (wired [.required] ⟨1⟩)
      else if key = .input "left" then some (wired [.required] ⟨0⟩)
      else none := by
  rw [Core.port?, straggler]
  simp only [Lookup.getElem?_insert, Std.ExtTreeMap.getElem?_empty]

theorem straggler_apart : straggler.core.Apart :=
  Core.apart_of_ports (by decide +kernel) (by decide +kernel)

theorem straggler_skips : straggler.Skips straggling := by
  refine ⟨by decide, rfl, "left", wired [.required] ⟨0⟩, ⟨0⟩, "right", wired [.required] ⟨1⟩, ⟨1⟩,
    ⟨.first, .empty⟩, ⟨Stamp.next .first, .empty⟩, ⟨?_, rfl, rfl⟩, ⟨?_, rfl, rfl⟩, ?_, ?_, by decide⟩
  · exact (straggler_port? _).trans (by decide)
  · exact (straggler_port? _).trans (by decide)
  · rw [World.first?, world, straggling, Edges.queue_push_of_ne _ _ (by decide),
      Edges.queue_push_self]
    rfl
  · rw [World.first?, world, straggling, Edges.queue_push_self,
      Edges.queue_push_of_ne _ _ (by decide)]
    rfl

/-- The process passes the plugin over, and the fault is on the edge of its output. -/
theorem step_meaning_straggler :
    straggler.core.state = .initialized ∧ straggler.core.complete = false ∧
      straggler.core.Apart ∧
      ∃ after, straggler.step straggling = (.ok (), straggler.inWorld after) ∧
        after.edges.queue ⟨2⟩ = [⟨.first, Fault.desync⟩] := by
  obtain ⟨gravest, -, hskipped, -⟩ :=
    step_meaning straggler straggling rfl rfl straggler_apart
  obtain ⟨after, hstep, hfaulted⟩ := hskipped straggler_skips
  refine ⟨rfl, rfl, straggler_apart, after, hstep, ?_⟩
  have hout : (straggler.world straggling).core.port? (.output "out") = some (wired [] ⟨2⟩) :=
    (straggler_port? _).trans (by decide)
  rw [hfaulted.sent hout (by decide) List.mem_cons_self, world, straggling,
    Edges.queue_push_of_ne _ _ (by decide), Edges.queue_push_of_ne _ _ (by decide)]
  rfl

end Process

end Dataflow
