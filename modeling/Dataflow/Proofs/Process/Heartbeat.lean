import Dataflow.Proofs.Process.Completion
import Dataflow.Proofs.Process.Output

/-!
# The heartbeat

A step that succeeds is reported on the heartbeat, once, and a step that fails is not. If the plugin
keeps its hands off the heartbeat, nothing else is sent there. So the stamp of the heartbeat counts
the steps that have succeeded since the last reset.
-/

namespace Dataflow

variable {σ : Type}

/-- Whether a hook never sends anything from the heartbeat. -/
def Reaction.Mute {α : Type} (hook : Reaction σ α) : Prop :=
  ∀ memory w, Hook.posted (hook memory) w Core.heartbeat = []

/-- Whether no hook of a plugin ever sends anything from the heartbeat. -/
structure Plugin.Mute (plugin : Plugin σ) : Prop where
  declare : plugin.declare.Mute
  configure : plugin.configure.Mute
  init : plugin.init.Mute
  step : plugin.step.Mute
  reset : plugin.reset.Mute
  reconfigure (update : Config) : (plugin.reconfigure update).Mute
  proposeType (key : PortKey) (proposed : DataType) : (plugin.proposeType key proposed).Mute

namespace Core

theorem declare_new {c : Core} {key : PortKey} {info : PortInfo} (early : c.state ≠ .initialized)
    (free : c.port? key = none) (fits : flagClash? key.direction info.flags = none) :
    ∃ port, (c.declare key info).2.port? key = some port ∧ port.stamp = .first := by
  obtain ⟨registry, hstatic⟩ := declareStatic_ok c.registry key info.flags
  rw [declare_eq early free fits hstatic]
  exact ⟨_, (port?_withPort c key info registry key).trans (if_pos rfl), rfl⟩

/-- Every core has a heartbeat from the beginning. -/
theorem ofConfig_heartbeat (config : Config) :
    ∃ port, (ofConfig config).port? (.output heartbeat) = some port ∧ port.stamp = .first := by
  apply declare_new
  · rw [(declareKey_touched _ _ _).state_eq, (declareKey_touched _ _ _).state_eq]
    show State.created ≠ .initialized
    decide
  · rw [declareKey_port, declareKey_port]
    rfl
  · decide

end Core

namespace Process

/-! ## One command -/

/-- A step fails if it runs its hook and the hook fails, and only then. -/
theorem step_isOk {p : Process σ} (running : p.core.state = .initialized) (edges : Edges) :
    (p.step edges).1.isOk = (p.calls edges .step).all Call.succeeded := by
  by_cases complete : p.core.complete = true
  · rw [step_of_complete running complete, calls_of_complete complete]
    rfl
  · have incomplete := Bool.eq_false_iff.mpr complete
    by_cases hjudge : p.judge edges = .step
    · rw [step_of_act running incomplete, act, hjudge, calls, if_pos ⟨running, incomplete, hjudge⟩]
      dsimp only [List.all_cons, List.all_nil]
      rw [Bool.and_true, call]
      obtain ⟨result, after⟩ := p.react edges p.plugin.step
      cases result <;> rfl
    · obtain ⟨datum, complete, hfault⟩ := Verdict.fault?_of_ne_step hjudge
      rw [step_of_fault running incomplete hfault, calls, if_neg fun h => hjudge h.2.2]
      rfl

/-- What a command sends from the heartbeat, if the plugin sends nothing there: the report of a step
that has succeeded. -/
def reported (p : Process σ) (edges : Edges) : Command → List Datum
  | .step =>
    if (p.step edges).1.isOk then [heartbeatDatum (p.step edges).2.1.core.complete] else []
  | _ => []

theorem posted_heartbeat {p : Process σ} (mute : p.plugin.Mute)
    (declared : (p.core.port? (.output Core.heartbeat)).isSome) (edges : Edges) (command : Command) :
    p.posted edges command Core.heartbeat = p.reported edges command := by
  cases command with
  | step =>
    by_cases running : p.core.state = .initialized
    · have hhook : (p.plugin.step p.memory).posted (p.world edges) Core.heartbeat = [] :=
        mute.step p.memory (p.world edges)
      -- Whatever the verdict is, the turn itself sends nothing there.
      have hworked : p.worked edges Core.heartbeat = [] := by
        unfold worked
        rw [hhook]
        split
        · rfl
        · split <;> rfl
      rw [posted_step running edges declared, hworked, List.nil_append, reported]
      simp only [true_and]
    · unfold posted task
      rw [if_neg running, reported, step, if_neg running]
      rfl
  | configure =>
    unfold posted task
    dsimp only
    split
    · exact mute.configure _ _
    · rfl
  | init =>
    unfold posted task
    dsimp only
    split
    · rfl
    · rfl
    · exact mute.init _ _
  | reset => exact mute.reset _ _
  | reconfigure update =>
    unfold posted task
    dsimp only
    split
    · rw [Hook.posted, Hook.along_bind]
      exact (List.append_nil _).trans (mute.reconfigure update _ _)
    · rfl
  | connect key edge? => rfl
  | setType key proposed =>
    unfold posted task
    dsimp only
    split
    · rfl
    · exact mute.proposeType key proposed _ _

/-! ## Many commands -/

/-- How many steps have succeeded since the last reset, behind a command. -/
def beatsAfter (p : Process σ) (edges : Edges) (count : Nat) : Command → Nat
  | .reset => 0
  | .step => if (p.step edges).1.isOk then count + 1 else count
  | _ => count

/-- How many steps have succeeded since the last reset, behind some commands. -/
def beats (p : Process σ) (count : Nat) : List (Edges × Command) → Nat
  | [] => count
  | (edges, command) :: rest =>
    (p.perform edges command).2.1.beats (p.beatsAfter edges count command) rest

theorem beatsAfter_eq (p : Process σ) (edges : Edges) (count : Nat) {command : Command}
    (noReset : command ≠ .reset) :
    p.beatsAfter edges count command = count + (p.reported edges command).length := by
  cases command with
  | reset => exact absurd rfl noReset
  | step =>
    unfold beatsAfter reported
    dsimp only
    split <;> rfl
  | configure | init | reconfigure _ | connect _ _ | setType _ _ => rfl

theorem perform_heartbeat {p : Process σ} (mute : p.plugin.Mute) {port : Port}
    (hport : p.core.port? (.output Core.heartbeat) = some port) (edges : Edges) (command : Command) :
    ∃ after, (p.perform edges command).2.1.core.port? (.output Core.heartbeat) = some after ∧
      after.stamp = p.beatsAfter edges port.stamp command := by
  have hposted := posted_heartbeat mute (hport ▸ rfl) edges command
  by_cases hreset : command = .reset
  · -- The count begins again, as the stamp does.
    subst hreset
    obtain ⟨after, hafter, hstamp⟩ := reset_output hport edges
    rw [hposted] at hstamp
    exact ⟨after, hafter, hstamp⟩
  · obtain ⟨after, hafter, hstamp, -⟩ := perform_output hreset (.inr rfl) hport edges
    rw [hposted, ← p.beatsAfter_eq edges port.stamp hreset] at hstamp
    exact ⟨after, hafter, hstamp⟩

theorem follow_heartbeat {p : Process σ} (mute : p.plugin.Mute) {port : Port}
    (hport : p.core.port? (.output Core.heartbeat) = some port) (commands : List (Edges × Command)) :
    (p.follow commands).plugin = p.plugin ∧
      ∃ after, (p.follow commands).core.port? (.output Core.heartbeat) = some after ∧
        after.stamp = p.beats port.stamp commands := by
  induction commands generalizing p port with
  | nil => exact ⟨rfl, port, hport, rfl⟩
  | cons given rest ih =>
    obtain ⟨edges, command⟩ := given
    have hplugin := p.perform_plugin edges command
    obtain ⟨mid, hmid, hstamp⟩ := perform_heartbeat mute hport edges command
    obtain ⟨hsame, after, hafter, hbeats⟩ := ih (hplugin ▸ mute) hmid
    refine ⟨hsame.trans hplugin, after, hafter, ?_⟩
    rw [hbeats, hstamp]
    rfl

theorem beats_eq {p : Process σ} (mute : p.plugin.Mute) {port : Port}
    (hport : p.core.port? (.output Core.heartbeat) = some port) {commands : List (Edges × Command)}
    (noReset : NoReset commands) (count : Nat) :
    p.beats count commands = count + (p.postedAlong Core.heartbeat commands).length := by
  induction commands generalizing p port count with
  | nil => rfl
  | cons given rest ih =>
    obtain ⟨edges, command⟩ := given
    obtain ⟨hhere, hlater⟩ := List.forall_mem_cons.mp noReset
    obtain ⟨mid, hmid, -⟩ := perform_heartbeat mute hport edges command
    have hrest := ih (p.perform_plugin edges command ▸ mute) hmid hlater
      (p.beatsAfter edges count command)
    rw [beats, hrest, p.beatsAfter_eq edges count hhere, postedAlong, List.length_append,
      posted_heartbeat mute (hport ▸ rfl), Nat.add_assoc]

/-- The heartbeat of a plugin that sends nothing there itself counts the steps that have succeeded
since the process was made or reset. Every step that succeeds sends one datum there, which says
whether the process is complete behind it, and no other command sends any. A running process fails a
step only if the hook of the step is run and fails. An edge that was bound before the first step has
received the data under all stamps from the first one on, each once for every time it is bound. -/
theorem heartbeat_counts {config : Config} {plugin : Plugin σ} {memory : σ} {edges edges' : Edges}
    {p : Process σ} (made : create config plugin memory edges = (.ok (), p, edges'))
    (mute : plugin.Mute) (commands : List (Edges × Command)) :
    let q := p.follow commands
    (∃ port, q.core.port? (.output Core.heartbeat) = some port ∧ port.stamp = p.beats 0 commands) ∧
      (∀ now command, q.posted now command Core.heartbeat = q.reported now command) ∧
      (q.core.state = .initialized →
        ∀ now, (q.step now).1.isOk = (q.calls now .step).all Call.succeeded) ∧
      ∀ port edge more, q.core.state = .initialized → NoReset more →
        q.core.port? (.output Core.heartbeat) = some port → port.stamp = .first →
        q.deliveredAlong Core.heartbeat edge more =
            (stampFrom .first (q.postedAlong Core.heartbeat more)).flatMap
              (List.replicate (port.edges.count edge)) ∧
          (stampFrom .first (q.postedAlong Core.heartbeat more)).map Stamped.stamp =
            List.range (q.beats 0 more) := by
  intro q
  -- The process that is made has sent nothing from its heartbeat yet.
  obtain ⟨first, hfirst, hstart⟩ := Core.ofConfig_heartbeat config
  have hplugin : p.plugin = plugin := congrArg (fun attempt => attempt.2.1.plugin) made.symm
  have hcore : p.core = ((plugin.declare memory).run ⟨.ofConfig config, edges⟩).2.core :=
    congrArg (fun attempt => attempt.2.1.core) made.symm
  obtain ⟨port, hport, -, hstamp⟩ := (plugin.declare memory).run_output
    (w := ⟨.ofConfig config, edges⟩) (.inr rfl) hfirst
  rw [mute.declare memory, hstart] at hstamp
  rw [← hcore] at hport
  obtain ⟨hsame, after, hafter, hbeats⟩ := follow_heartbeat (hplugin ▸ mute) hport commands
  have hmute : q.plugin.Mute := by
    rw [hsame, hplugin]
    exact mute
  refine ⟨⟨after, hafter, ?_⟩, ?_, ?_, ?_⟩
  · rw [hbeats, hstamp]
    rfl
  · intro now command
    exact posted_heartbeat hmute (hafter ▸ rfl) now command
  · intro running now
    exact step_isOk running now
  · intro port edge more running noReset hport hstamp
    have hbeats := beats_eq hmute hport noReset 0
    constructor
    · rw [deliveredAlong_eq noReset running hport, hstamp]
    · rw [map_stamp_stampFrom, hbeats, Nat.zero_add, List.range_eq_range']
      rfl

/-- A plugin whose first step fails. It remembers whether it has failed. -/
def moody : Plugin Bool :=
  { Plugin.idle Bool with
    step := fun failed => .done (if failed then .ok () else .error (.plugin "no" []), true) }

theorem moody_mute : moody.Mute where
  declare _ _ := rfl
  configure _ _ := rfl
  init _ _ := rfl
  step _ _ := rfl
  reset _ _ := rfl
  reconfigure _ _ _ := rfl
  proposeType _ _ _ _ := rfl

/-- The commands that bind an edge to the heartbeat and make a process run. -/
def waking : List (Edges × Command) :=
  [(.empty, .configure), (.empty, .connect (.output Core.heartbeat) (some ⟨0⟩)), (.empty, .init)]

def awake : Process Bool := (create ∅ moody false .empty).2.1.follow waking

/-- Of three steps the first one fails, and the two others are reported under the first stamps. -/
theorem heartbeat_counts_moody :
    ∃ p edges, create ∅ moody false .empty = (.ok (), p, edges) ∧ moody.Mute ∧
      (p.follow waking).core.state = .initialized ∧
      NoReset [(Edges.empty, .step), (.empty, .step), (.empty, .step)] ∧
      (p.follow waking).deliveredAlong Core.heartbeat ⟨0⟩
          [(.empty, .step), (.empty, .step), (.empty, .step)] =
        [⟨.first, .empty⟩, ⟨Stamp.next .first, .empty⟩] := by
  have made : create ∅ moody false .empty = (.ok (), (create ∅ moody false .empty).2.1, .empty) :=
    rfl
  have noReset : NoReset [(Edges.empty, .step), (.empty, .step), (.empty, .step)] := by
    simp [NoReset]
  have running : awake.core.state = .initialized := by
    decide +kernel
  have hport : (awake.core.port? (.output Core.heartbeat)).map
      (fun port => (port.stamp, port.edges.count ⟨0⟩)) = some (.first, 1) := by
    decide +kernel
  have hsent : awake.postedAlong Core.heartbeat [(.empty, .step), (.empty, .step), (.empty, .step)] =
      [.empty, .empty] := by
    decide +kernel
  obtain ⟨port, hbound, hview⟩ := Option.map_eq_some_iff.mp hport
  obtain ⟨hstamp, hcount⟩ := Prod.mk.inj hview
  obtain ⟨-, -, -, hedge⟩ := heartbeat_counts made moody_mute waking
  obtain ⟨hdelivered, -⟩ := hedge port ⟨0⟩ _ running noReset hbound hstamp
  refine ⟨_, _, made, moody_mute, running, noReset, hdelivered.trans ?_⟩
  change (stampFrom .first (awake.postedAlong _ _)).flatMap _ = _
  rw [hcount, hsent]
  rfl

/-- A step whose hook fails sends nothing from the heartbeat, and the stamp stays. -/
theorem heartbeat_missed :
    moody.Mute ∧ awake.core.state = .initialized ∧ (awake.step .empty).1.isOk = false ∧
      awake.posted .empty .step Core.heartbeat = [] ∧
      (awake.core.port? (.output Core.heartbeat)).map Port.stamp = some .first ∧
      ((awake.step .empty).2.1.core.port? (.output Core.heartbeat)).map Port.stamp = some .first := by
  refine ⟨moody_mute, ?_, ?_, ?_, ?_, ?_⟩
  all_goals decide +kernel

end Process

end Dataflow
