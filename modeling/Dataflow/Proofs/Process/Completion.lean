import Dataflow.Proofs.Process.Freeze
import Dataflow.Proofs.Process.Watch

/-!
# Completion

A process that is complete stays so until it is reset. Its steps succeed, but they do nothing other
than to report. So whatever else happens, the data by which steps pass a plugin over complete a
process once at most.
-/

namespace Dataflow

namespace Core

theorem Touched.complete_stays {c after : Core} (h : c.Touched after) (complete : c.complete = true) :
    after.complete = true := by
  cases h with
  | completed => rfl
  | @settled key type _ _ _ _ _ =>
    have hrest := congrArg Core.complete (c.settle_rest key type)
    exact hrest.trans complete
  | same | declared | removed | retimed | keyed | leveled | sent => exact complete

/-- Only a reset takes the mark of completion away. -/
theorem Moved.complete_stays {c after : Core} (h : c.Moved False after)
    (complete : c.complete = true) : after.complete = true := by
  cases h with
  | touched h => exact h.complete_stays complete
  | faulted _ incomplete => exact nomatch incomplete.symm.trans complete
  | rewound h => exact h.elim
  | configured | initialized | connected | retuned => exact complete

end Core

theorem Verdict.complete_of_fault {verdict : Verdict} {datum : Datum} {complete : Bool}
    (h : verdict.fault? = some (datum, complete)) : complete = decide (datum.status = .complete) := by
  cases verdict with
  | step => exact nomatch h
  | desync =>
    obtain ⟨rfl, rfl⟩ := Prod.mk.inj (Option.some.inj h)
    rfl
  | propagate status =>
    obtain ⟨rfl, rfl⟩ := Prod.mk.inj (Option.some.inj h)
    rw [Process.status_ofStatus]

namespace Process

variable {σ : Type}

theorem course_complete (p : Process σ) {commands : List (Edges × Command)}
    (noReset : NoReset commands) (complete : p.core.complete = true) :
    (∀ w ∈ p.course commands, w.core.complete = true) ∧
      (p.follow commands).core.complete = true := by
  refine p.course_keeps (P := fun c => c.complete = true) ?_ noReset complete
  exact fun _ _ moved => moved.complete_stays

theorem step_of_complete {p : Process σ} (running : p.core.state = .initialized)
    (complete : p.core.complete = true) (edges : Edges) :
    p.step edges = (.ok (), p.inWorld (p.world edges).beat) := by
  rw [step, if_pos running, if_pos complete]

/-- A complete process runs no step hook. -/
theorem calls_of_complete {p : Process σ} (complete : p.core.complete = true) (edges : Edges) :
    p.calls edges .step = [] := by
  rw [calls, if_neg]
  rintro ⟨-, incomplete, -⟩
  exact Bool.false_ne_true (incomplete.symm.trans complete)

/-! ## What a process sends on its own -/

/-- The datum that a command sends from every output in place of results. Only a step that finds
fault sends one. -/
def fault? (p : Process σ) (edges : Edges) : Command → Option Datum
  | .step =>
    if p.core.state = .initialized ∧ p.core.complete = false then
      (p.judge edges).fault?.map Prod.fst
    else none
  | _ => none

/-- The data that are sent in place of results during some commands, in their order. -/
def faults (p : Process σ) : List (Edges × Command) → List Datum
  | [] => []
  | (edges, command) :: rest =>
    (p.fault? edges command).toList ++ (p.perform edges command).2.1.faults rest

theorem command_of_fault {p : Process σ} {edges : Edges} {command : Command} {datum : Datum}
    (h : p.fault? edges command = some datum) : command = .step := by
  cases command with
  | step => rfl
  | configure | init | reset | reconfigure _ | connect _ _ | setType _ _ => exact nomatch h

theorem no_fault_of_complete {p : Process σ} (complete : p.core.complete = true) (edges : Edges)
    (command : Command) : p.fault? edges command = none := by
  cases command with
  | step =>
    rw [fault?, if_neg]
    rintro ⟨-, incomplete⟩
    exact Bool.false_ne_true (incomplete.symm.trans complete)
  | configure | init | reset | reconfigure _ | connect _ _ | setType _ _ => rfl

theorem step_of_fault? {p : Process σ} {edges : Edges} {datum : Datum}
    (h : p.fault? edges .step = some datum) :
    p.step edges = (.ok (), p.inWorld (Fault.send
      { p.world edges with core := { p.core with complete := datum.status = .complete } } datum
      (p.world edges).requiredHeads).beat) := by
  rw [fault?] at h
  split at h
  · rename_i hfit
    obtain ⟨⟨_, complete⟩, hfault, rfl⟩ := Option.map_eq_some_iff.mp h
    obtain rfl := Verdict.complete_of_fault hfault
    exact step_of_fault hfit.1 hfit.2 hfault
  · exact nomatch h

/-- A step that finds no fault sends nothing on its own but the report. -/
theorem behind_of_no_fault {p : Process σ} {edges : Edges} (h : p.fault? edges .step = none) :
    ∃ w, (w = p.world edges ∨ w = p.ending edges p.plugin.step) ∧
      (p.behind edges .step = w ∨ p.behind edges .step = w.beat) := by
  by_cases running : p.core.state = .initialized
  · by_cases complete : p.core.complete = true
    · refine ⟨p.world edges, .inl rfl, .inr ?_⟩
      rw [behind, perform, step_of_complete running complete]
      rfl
    · have incomplete := Bool.eq_false_iff.mpr complete
      have hjudge : p.judge edges = .step := by
        -- Any other verdict has a datum to send.
        by_contra hjudge
        obtain ⟨datum, complete, hfault⟩ := Verdict.fault?_of_ne_step hjudge
        rw [fault?, if_pos ⟨running, incomplete⟩, hfault] at h
        exact Option.some_ne_none _ h
      refine ⟨p.ending edges p.plugin.step, .inr rfl, ?_⟩
      rw [behind, perform, step_of_act running incomplete, act, hjudge, ← react_world]
      dsimp only
      obtain ⟨result, after⟩ := p.react edges p.plugin.step
      cases result with
      | error e => exact .inl rfl
      | ok _ => exact .inr rfl
  · refine ⟨p.world edges, .inl rfl, .inl ?_⟩
    rw [behind, perform, step, if_neg running]

theorem perform_complete {p : Process σ} (complete : p.core.complete = true) (edges : Edges)
    {command : Command} (noReset : command ≠ .reset) :
    (p.perform edges command).2.1.core.complete = true := by
  have hcommands : NoReset [(edges, command)] := List.forall_mem_singleton.mpr noReset
  exact (p.course_complete hcommands complete).2

theorem faults_of_complete {p : Process σ} {commands : List (Edges × Command)}
    (noReset : NoReset commands) (complete : p.core.complete = true) : p.faults commands = [] := by
  induction commands generalizing p with
  | nil => rfl
  | cons given rest ih =>
    obtain ⟨edges, command⟩ := given
    obtain ⟨hhere, hlater⟩ := List.forall_mem_cons.mp noReset
    rw [faults, no_fault_of_complete complete, ih hlater (perform_complete complete edges hhere)]
    rfl

/-- Between resets, one datum at most completes the process in place of results. -/
theorem countP_faults (p : Process σ) {commands : List (Edges × Command)}
    (noReset : NoReset commands) :
    (p.faults commands).countP (fun datum => datum.status = .complete) ≤ 1 := by
  induction commands generalizing p with
  | nil => exact Nat.zero_le 1
  | cons given rest ih =>
    obtain ⟨edges, command⟩ := given
    obtain ⟨-, hlater⟩ := List.forall_mem_cons.mp noReset
    have hrest := ih (p.perform edges command).2.1 hlater
    rw [faults, List.countP_append]
    cases hfault : p.fault? edges command with
    | none =>
      rw [Option.toList_none, List.countP_nil, Nat.zero_add]
      exact hrest
    | some datum =>
      obtain rfl := command_of_fault hfault
      by_cases hstatus : datum.status = .complete
      · -- This datum completes the process, so that it is the last one.
        have hcomplete : (p.perform edges .step).2.1.core.complete = true := by
          have hcore := (p.world edges).send_beat_core (decide (datum.status = .complete)) datum
            (p.world edges).requiredHeads
          change (p.step edges).2.1.core.complete = true
          rw [step_of_fault? hfault]
          exact (congrArg Core.complete hcore).trans (decide_eq_true hstatus)
        rw [faults_of_complete hlater hcomplete, List.countP_nil, Nat.add_zero]
        exact List.countP_le_length
      · rw [Option.toList_some, List.countP_singleton, if_neg (by simpa using hstatus), Nat.zero_add]
        exact hrest

/-- As long as it is not reset, a complete process that is running stays complete, and its steps
succeed without their hook. They take nothing from any edge and add the report alone, once for every
time that the edge is bound. So whatever comes before, a process completes in place of results once
at most. What it sends in place of results, it sends from every output but the heartbeat, once. -/
theorem completion_absorbs (p : Process σ) {commands : List (Edges × Command)}
    (noReset : NoReset commands) :
    let q := p.follow commands
    (p.core.state = .initialized → p.core.complete = true →
      (∀ w ∈ p.course commands, w.core.complete = true) ∧ q.core.complete = true ∧
        ∀ now, (∀ log, (q.watched log).perform now .step = logged (q.perform now .step) log) ∧
          ∃ after, q.step now = (.ok (), q.inWorld after) ∧
            after.core = q.core.advance (· = Core.heartbeat) ∧
            ∀ edge, after.edges.queue edge =
              now.queue edge ++ q.core.sent .complete edge Core.heartbeat) ∧
      (p.faults commands).countP (fun datum => datum.status = .complete) ≤ 1 ∧
      ∀ now, match q.fault? now .step with
        | some datum =>
          q.step now = (.ok (), q.inWorld (Fault.send
            { q.world now with core := { q.core with complete := datum.status = .complete } } datum
            (q.world now).requiredHeads).beat)
        | none =>
          ∃ w, (w = q.world now ∨ w = q.ending now q.plugin.step) ∧
            (q.behind now .step = w ∨ q.behind now .step = w.beat) := by
  intro q
  refine ⟨fun running complete => ?_, p.countP_faults noReset, fun now => ?_⟩
  · obtain ⟨hcourse, hcomplete⟩ := p.course_complete noReset complete
    have hfrozen : p.core.Frozen q.core := (p.course_frozen running noReset).2.1
    have hrunning : q.core.state = .initialized := hfrozen.state_eq.trans running
    refine ⟨hcourse, hcomplete, fun now => ⟨fun log => ?_, ?_⟩⟩
    · rw [perform_watched, calls_of_complete hcomplete, List.append_nil]
    · refine ⟨_, step_of_complete hrunning hcomplete now, World.beat_core _, fun edge => ?_⟩
      rw [World.beat_queue]
      change _ ++ q.core.sent (heartbeatDatum q.core.complete) edge Core.heartbeat = _
      rw [hcomplete]
      rfl
  · cases hfault : q.fault? now .step with
    | some datum => exact step_of_fault? hfault
    | none => exact behind_of_no_fault hfault

/-- A plugin that is complete with its first step. -/
def brief : Plugin Unit := { Plugin.idle Unit with step := Reaction.request .markComplete }

/-- The plugin behind its first step, with some edges bound to its heartbeat. -/
def finished (bound : List EdgeId) : Process Unit :=
  (create ∅ brief () .empty).2.1.follow
    ((Edges.empty, .configure) ::
      bound.map (fun edge => (Edges.empty, .connect (.output Core.heartbeat) (some edge))) ++
      [(Edges.empty, .init), (Edges.empty, .step)])

/-- A step after an update reports that the process is complete. -/
theorem completion_absorbs_finished :
    NoReset [(Edges.empty, .reconfigure ∅)] ∧ (finished [⟨0⟩]).core.state = .initialized ∧
      (finished [⟨0⟩]).core.complete = true ∧
      ∃ p edges, ((finished [⟨0⟩]).follow [(Edges.empty, .reconfigure ∅)]).step .empty =
          (.ok (), p, edges) ∧
        p.core.complete = true ∧ edges.queue ⟨0⟩ = [⟨Stamp.next .first, .complete⟩] := by
  have noReset : NoReset [(Edges.empty, .reconfigure ∅)] := by
    simp [NoReset]
  have running : (finished [⟨0⟩]).core.state = .initialized := by
    decide +kernel
  have complete : (finished [⟨0⟩]).core.complete = true := by
    decide +kernel
  have hsent : ((finished [⟨0⟩]).follow [(Edges.empty, .reconfigure ∅)]).core.sent .complete ⟨0⟩
      Core.heartbeat = [⟨Stamp.next .first, .complete⟩] := by
    decide +kernel
  obtain ⟨-, hcomplete, hsteps⟩ := ((finished [⟨0⟩]).completion_absorbs noReset).1 running complete
  obtain ⟨-, after, hstep, hcore, hqueue⟩ := hsteps .empty
  refine ⟨noReset, running, complete, _, _, hstep, ?_, ?_⟩
  · exact (congrArg Core.complete hcore).trans hcomplete
  · exact (hqueue ⟨0⟩).trans hsent

/-- An edge that is bound to the heartbeat twice gets two data from one step. -/
theorem completion_sent_twice :
    (finished [⟨0⟩, ⟨0⟩]).core.state = .initialized ∧ (finished [⟨0⟩, ⟨0⟩]).core.complete = true ∧
      ((finished [⟨0⟩, ⟨0⟩]).core.port? (.output Core.heartbeat)).map Port.edges =
        some [⟨0⟩, ⟨0⟩] ∧
      ((finished [⟨0⟩, ⟨0⟩]).step .empty).2.2.queue ⟨0⟩ =
        [⟨Stamp.next .first, .complete⟩, ⟨Stamp.next .first, .complete⟩] := by
  refine ⟨?_, ?_, ?_, ?_⟩
  all_goals decide +kernel

end Process

end Dataflow
