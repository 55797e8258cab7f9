import Dataflow.Proofs.Process.Completion

/-!
# Markers of completion

A marker of completion at the head of a required input is the gravest thing that a check can find. So
a step that finds one passes it on to all outputs and completes the process, whatever the other heads
are. Two things come before: heads that are out of sync, and a marker that is not at the head. A step
that passes its plugin over drops what it would have taken, and with it the marker may go.
-/

namespace Dataflow

namespace World

/-- Whether a required input has a marker of completion at its head. -/
def Ends (w : World) : Prop :=
  ∃ name port edge, w.Requires name port edge ∧ w.statusOn edge = .complete

theorem Gravest.ends_iff {w : World} {gravest : Status} (h : w.Gravest gravest) :
    w.Ends ↔ gravest = .complete := by
  constructor
  · rintro ⟨name, port, edge, hrequires, hstatus⟩
    have hle : Status.complete ≤ gravest := hstatus ▸ h.bound hrequires
    revert hle
    cases gravest <;> decide
  · rintro rfl
    exact h.reached.resolve_left nofun

theorem statusOn_of_taken {w : World} {edge : EdgeId} {removed rest : List Stamped}
    (h : w.edges.queue edge = removed ++ rest) {first : Stamped} (hfirst : removed.head? = some first) :
    w.statusOn edge = first.status := by
  obtain ⟨more, rfl⟩ := List.head?_eq_some_iff.mp hfirst
  rw [statusOn, first?, h]
  rfl

/-- A fault takes no more from a required input than a step would have taken. -/
theorem Faulted.length_le {w after : World} {datum : Datum} {complete : Bool}
    (h : w.Faulted datum complete after) {name : String} {port : Port} {edge : EdgeId}
    (requires : w.Requires name port edge) {removed : List Stamped}
    (hremoved : w.edges.queue edge = removed ++ after.edges.queue edge) :
    removed.length ≤ port.info.frequency.tokensPerStep := by
  obtain ⟨drained, hdrained, hlength⟩ := h.drained requires
  obtain rfl := List.append_cancel_right (hremoved.symm.trans hdrained)
  rw [hlength]
  exact Nat.min_le_right _ _

end World

namespace Process

variable {σ : Type}

/-- The report of a complete process takes nothing from its inputs. -/
theorem step_queue_of_complete {p : Process σ} (running : p.core.state = .initialized)
    (complete : p.core.complete = true) (apart : p.core.Apart) {edges : Edges} {name : String}
    {port : Port} {edge : EdgeId} (requires : (p.world edges).Requires name port edge) :
    (p.step edges).2.2.queue edge = edges.queue edge := by
  have hfree (beat : Port) (hbeat : p.core.port? (.output Core.heartbeat) = some beat) :
      edge ∉ beat.edges :=
    apart.crossed requires.declared hbeat (List.mem_of_head? requires.bound)
  rw [step_of_complete running complete]
  change (p.world edges).beat.edges.queue edge = _
  rw [World.beat_queue]
  change edges.queue edge ++ p.core.sent _ edge Core.heartbeat = _
  rw [Core.sent_of_free hfree, List.append_nil]

/-- A step that takes something from a required input finds the process incomplete. -/
theorem incomplete_of_taken {p : Process σ} (running : p.core.state = .initialized)
    (apart : p.core.Apart) {edges : Edges} {name : String} {port : Port} {edge : EdgeId}
    (requires : (p.world edges).Requires name port edge) {removed : List Stamped}
    (hremoved : edges.queue edge = removed ++ (p.step edges).2.2.queue edge)
    (taken : removed ≠ []) : p.core.complete = false := by
  apply Bool.eq_false_iff.mpr
  intro complete
  rw [step_queue_of_complete running complete apart requires] at hremoved
  exact taken (List.self_eq_append_left.mp hremoved)

theorem judge_of_passed_over {p : Process σ} {edges : Edges} (running : p.core.state = .initialized)
    (incomplete : p.core.complete = false) (h : p.calls edges .step = []) :
    p.judge edges ≠ .step := by
  intro hjudge
  rw [calls, if_pos ⟨running, incomplete, hjudge⟩] at h
  exact absurd h (List.cons_ne_nil _ _)

theorem calls_of_ne_step {p : Process σ} {edges : Edges} (h : p.judge edges ≠ .step) :
    p.calls edges .step = [] :=
  if_neg fun called => h called.2.2

/-- A step that passes its plugin over sends one datum in place of results: for heads that are out of
sync, or else for the gravest status among them. -/
theorem step_of_passed_over {p : Process σ} {edges : Edges} (running : p.core.state = .initialized)
    (incomplete : p.core.complete = false) (apart : p.core.Apart) (h : p.judge edges ≠ .step) :
    ∃ after, p.step edges = (.ok (), p.inWorld after) ∧
      (p.Skips edges ∧ (p.world edges).Faulted Fault.desync false after ∨
        ¬ p.Skips edges ∧ ∃ status, status ≠ .data ∧ (p.world edges).Gravest status ∧
          (p.world edges).Faulted (Fault.ofStatus status) (status = .complete) after) := by
  by_cases hskips : p.Skips edges
  · have hfaulted := World.faulted_send (w := p.world edges) apart Fault.desync false
    exact ⟨_, step_of_skips running incomplete hskips, .inl ⟨hskips, hfaulted⟩⟩
  · have hjudge := judge_of_not_skips hskips
    split at hjudge
    · rename_i hgrave
      refine ⟨_, step_of_propagate running incomplete hjudge, .inr ⟨hskips, _, hgrave.2,
        (p.world edges).gravest_worstStatus, World.faulted_send apart _ _⟩⟩
    · exact absurd hjudge h

/-- A step that passes its plugin over drops a marker of completion from a required input. If the
heads are not out of sync and one of them is a marker, the process is complete behind the step, and
every output has sent one marker. That is so whenever the marker that is dropped was at its head, as
it is at an input of which a step takes one token. Otherwise the marker is dropped with the rest: for
heads that are out of sync, or for the gravest status at the heads. -/
theorem marker_passed_on {p : Process σ} {edges : Edges} (running : p.core.state = .initialized)
    (apart : p.core.Apart) (passedOver : p.calls edges .step = []) {name : String} {port : Port}
    {edge : EdgeId} (requires : (p.world edges).Requires name port edge) {removed : List Stamped}
    (hremoved : edges.queue edge = removed ++ (p.step edges).2.2.queue edge) {token : Stamped}
    (htoken : token ∈ removed) (marker : token.status = .complete) :
    p.core.complete = false ∧
      ∃ after, p.step edges = (.ok (), p.inWorld after) ∧
        (¬ p.Skips edges → (p.world edges).Ends →
          after.core.complete = true ∧ (p.world edges).Faulted .complete true after) ∧
        (¬ p.Skips edges → ¬ (p.world edges).Ends →
          after.core.complete = false ∧
            ∃ status, (status = .empty ∨ status = .error) ∧ (p.world edges).Gravest status ∧
              (p.world edges).Faulted (Fault.ofStatus status) false after) ∧
        (p.Skips edges →
          after.core.complete = false ∧ (p.world edges).Faulted Fault.desync false after) ∧
        (removed.head?.map Stamped.status = some .complete → (p.world edges).Ends) ∧
        (port.info.frequency.tokensPerStep = 1 → (p.world edges).Ends) := by
  have taken : removed ≠ [] := List.ne_nil_of_mem htoken
  have incomplete := incomplete_of_taken running apart requires hremoved taken
  have hjudge := judge_of_passed_over running incomplete passedOver
  obtain ⟨after, hstep, hcases⟩ := step_of_passed_over running incomplete apart hjudge
  refine ⟨incomplete, after, hstep, ?_, ?_, ?_, ?_, ?_⟩
  · intro hskips hends
    obtain ⟨-, status, -, hgravest, hfaulted⟩ := hcases.resolve_left fun h => hskips h.1
    obtain rfl := hgravest.ends_iff.mp hends
    exact ⟨congrArg Core.complete hfaulted.core_eq, hfaulted⟩
  · intro hskips hends
    obtain ⟨-, status, hne, hgravest, hfaulted⟩ := hcases.resolve_left fun h => hskips h.1
    have hcomplete : status ≠ .complete := mt hgravest.ends_iff.mpr hends
    rw [decide_eq_false hcomplete] at hfaulted
    refine ⟨congrArg Core.complete hfaulted.core_eq, status, ?_, hgravest, hfaulted⟩
    cases status with
    | data => exact absurd rfl hne
    | empty => exact .inl rfl
    | error => exact .inr rfl
    | complete => exact absurd rfl hcomplete
  · intro hskips
    obtain ⟨-, hfaulted⟩ := hcases.resolve_right fun h => h.1 hskips
    exact ⟨congrArg Core.complete hfaulted.core_eq, hfaulted⟩
  · intro hhead
    obtain ⟨first, hfirst, hstatus⟩ := Option.map_eq_some_iff.mp hhead
    exact ⟨name, port, edge, requires, (World.statusOn_of_taken hremoved hfirst).trans hstatus⟩
  · intro hsingle
    obtain ⟨datum, complete, hfaulted⟩ :
        ∃ datum complete, (p.world edges).Faulted datum complete after := by
      rcases hcases with ⟨-, h⟩ | ⟨-, status, -, -, h⟩
      · exact ⟨_, _, h⟩
      · exact ⟨_, _, h⟩
    have hqueue : (p.step edges).2.2 = after.edges := congrArg (fun attempt => attempt.2.2) hstep
    rw [hqueue] at hremoved
    have hlength := hfaulted.length_le requires hremoved
    rw [hsingle] at hlength
    -- What is taken alone is the head.
    obtain ⟨first, rfl⟩ : ∃ first, removed = [first] :=
      List.length_eq_one_iff.mp (Nat.le_antisymm hlength (List.length_pos_of_mem htoken))
    obtain rfl := List.mem_singleton.mp htoken
    exact ⟨name, port, edge, requires, (World.statusOn_of_taken hremoved rfl).trans marker⟩

/-- Heads of two places, one of them a marker of completion. -/
def parting : Edges :=
  (Edges.empty.push ⟨0⟩ ⟨.first, .empty⟩).push ⟨1⟩ ⟨Stamp.next .first, .complete⟩

/-- Heads of one place, one of them a marker of completion. -/
def parted : Edges := (Edges.empty.push ⟨0⟩ ⟨.first, .empty⟩).push ⟨1⟩ ⟨.first, .complete⟩

/-- The marker completes the process and is passed on. -/
theorem marker_passed_on_parted :
    straggler.core.state = .initialized ∧ straggler.core.Apart ∧
      straggler.calls parted .step = [] ∧ ¬ straggler.Skips parted ∧
      ∃ port removed after, (straggler.world parted).Requires "right" port ⟨1⟩ ∧
        parted.queue ⟨1⟩ = removed ++ (straggler.step parted).2.2.queue ⟨1⟩ ∧
        (∃ token ∈ removed, token.status = .complete) ∧
        straggler.step parted = (.ok (), straggler.inWorld after) ∧ after.core.complete = true ∧
        after.edges.queue ⟨2⟩ = [⟨.first, .complete⟩] := by
  have hjudge : straggler.judge parted = .propagate .complete := by
    decide +kernel
  have passedOver : straggler.calls parted .step = [] :=
    calls_of_ne_step (by rw [hjudge]; decide)
  have hskips : ¬ straggler.Skips parted := fun h =>
    absurd ((judge_of_skips h).symm.trans hjudge) (by decide)
  have requires : (straggler.world parted).Requires "right" (wired [.required] ⟨1⟩) ⟨1⟩ :=
    ⟨(straggler_port? _).trans (by decide), rfl, rfl⟩
  have hremoved : parted.queue ⟨1⟩ =
      [⟨.first, .complete⟩] ++ (straggler.step parted).2.2.queue ⟨1⟩ := by
    decide +kernel
  obtain ⟨-, after, hstep, hpassed, -, -, hends, -⟩ :=
    marker_passed_on (p := straggler) rfl straggler_apart passedOver requires hremoved
      List.mem_cons_self rfl
  obtain ⟨complete, hfaulted⟩ := hpassed hskips (hends rfl)
  refine ⟨rfl, straggler_apart, passedOver, hskips, _, _, after, requires, hremoved,
    ⟨_, List.mem_cons_self, rfl⟩, hstep, complete, ?_⟩
  have hout : (straggler.world parted).core.port? (.output "out") = some (wired [] ⟨2⟩) :=
    (straggler_port? _).trans (by decide)
  rw [hfaulted.sent hout (by decide) List.mem_cons_self]
  decide +kernel

/-- A process of which every step takes two tokens. -/
def hasty : Process Unit where
  core := { Core.bare ∅ with
    state := .initialized
    ports := ((Std.ExtTreeMap.insert ∅ (.input "in")
      ⟨.any, ⟨.any, .ofList [.required], "", .integral 2⟩, [⟨0⟩], .first⟩).insert
      (.output "out") (wired [] ⟨1⟩)).insert (.output Core.heartbeat) (wired [] ⟨2⟩) }
  plugin := .idle Unit
  memory := ()

/-- A marker of completion behind the head. -/
def trailing : Edges :=
  (Edges.empty.push ⟨0⟩ ⟨.first, .empty⟩).push ⟨0⟩ ⟨Stamp.next .first, .complete⟩

/-- A step without its hook drops a marker of completion, and neither completes the process nor passes
the marker on. -/
structure Drops (p : Process σ) (edges : Edges) : Prop where
  running : p.core.state = .initialized
  valid : p.core.level = .valid
  apart : p.core.Apart
  passedOver : p.calls edges .step = []
  taken : ∃ name port edge removed, (p.world edges).Requires name port edge ∧
    edges.queue edge = removed ++ (p.step edges).2.2.queue edge ∧
    ∃ token ∈ removed, token.status = .complete
  incomplete : (p.step edges).2.1.core.complete = false
  unsent : ∃ name port edge, p.core.port? (.output name) = some port ∧ name ≠ Core.heartbeat ∧
    edge ∈ port.edges ∧ ∀ token ∈ (p.step edges).2.2.queue edge, token.status ≠ .complete

/-- Markers are dropped by heads out of sync, and by steps that take more than the head. -/
theorem marker_dropped : straggler.Drops parting ∧ hasty.Drops trailing := by
  have hparting : straggler.judge parting = .desync := by
    decide +kernel
  have htrailing : hasty.judge trailing = .propagate .empty := by
    decide +kernel
  constructor
  · refine ⟨rfl, rfl, straggler_apart, ?_, ?_, by decide +kernel, ?_⟩
    · exact calls_of_ne_step (by rw [hparting]; decide)
    · refine ⟨"right", wired [.required] ⟨1⟩, ⟨1⟩, [⟨Stamp.next .first, .complete⟩], ?_,
        by decide +kernel, _, List.mem_cons_self, rfl⟩
      exact ⟨(straggler_port? _).trans (by decide), rfl, rfl⟩
    · refine ⟨"out", wired [] ⟨2⟩, ⟨2⟩, (straggler_port? _).trans (by decide), by decide,
        List.mem_cons_self, by decide +kernel⟩
  · refine ⟨rfl, rfl, Core.apart_of_ports (by decide +kernel) (by decide +kernel), ?_, ?_,
      by decide +kernel, ?_⟩
    · exact calls_of_ne_step (by rw [htrailing]; decide)
    · refine ⟨"in", _, ⟨0⟩, [⟨.first, .empty⟩, ⟨Stamp.next .first, .complete⟩], ⟨rfl, rfl, rfl⟩,
        by decide +kernel, _, List.mem_cons_of_mem _ List.mem_cons_self, rfl⟩
    · exact ⟨"out", wired [] ⟨1⟩, ⟨1⟩, rfl, by decide, List.mem_cons_self, by decide +kernel⟩

end Process

end Dataflow
