import Mathlib.Tactic.LinearCombination
import Mathlib.Tactic.Zify
import Dataflow.Proofs.Process.Completion
import Dataflow.Proofs.Process.Output

/-!
# Inputs of several rates

A process takes from each of its required inputs as many data in a step as the frequency of the input
says, whether the step runs its hook or finds fault. So the heads move on by their rates, and the
hook is run in just those steps in which they happen to meet: `steps_by_rate` says so of inputs that
start anywhere.
-/

namespace Dataflow

namespace Process

variable {σ : Type}

theorem steps_succ (p : Process σ) (edges : Edges) (k : Nat) :
    p.steps edges (k + 1) =
      match p.steps edges k with
      | (.error e, after) => (.error e, after)
      | (.ok (), q, now) => q.step now := by
  induction k generalizing p edges with
  | zero =>
    change (match p.step edges with
      | (.error e, after) => (.error e, after)
      | (.ok (), q, now) => (.ok (), q, now)) = p.step edges
    obtain ⟨result, q, now⟩ := p.step edges
    cases result <;> rfl
  | succ k ih =>
    rw [steps, steps]
    generalize p.step edges = stepped
    obtain ⟨result, q, now⟩ := stepped
    cases result with
    | error e => rfl
    | ok _ => exact ih q now

/-- Whether the required inputs have edges of their own, with data of consecutive places enough for
so many steps. -/
structure Fed (p : Process σ) (edges : Edges) (count : Nat) (start : String → Stamp) : Prop where
  distinct : ∀ {name name' port port' edge}, (p.world edges).Requires name port edge →
    (p.world edges).Requires name' port' edge → name' = name
  apart : ∀ {name port edge out port'}, (p.world edges).Requires name port edge →
    p.core.port? (.output out) = some port' → edge ∉ port'.edges
  integral : ∀ {name port edge}, (p.world edges).Requires name port edge →
    ∃ rate, 0 < rate ∧ port.info.frequency = .integral rate
  supplied : ∀ {name port edge}, (p.world edges).Requires name port edge →
    ∀ i < count * port.info.frequency.tokensPerStep, ∃ token,
      (edges.queue edge)[i]? = some token ∧ token.stamp = start name + i ∧ token.status = .data

/-- Whether the step hook succeeds, takes what the rates say, and leaves level and mark alone. -/
structure Paced (p : Process σ) (edges : Edges) : Prop where
  succeeds : (p.react edges p.plugin.step).1 = .ok ()
  takes : ∀ {name port edge}, (p.world edges).Requires name port edge →
    ((p.plugin.step p.memory).taken (p.world edges) edge).length = port.info.frequency.tokensPerStep
  level_eq : (p.ending edges p.plugin.step).core.level = p.core.level
  complete_eq : (p.ending edges p.plugin.step).core.complete = p.core.complete

/-- Whether all required inputs are at one place when they have moved on by their rates so often. -/
def Aligned (p : Process σ) (edges : Edges) (start : String → Stamp) (k : Nat) : Prop :=
  ∀ {name port edge name' port' edge'}, (p.world edges).Requires name port edge →
    (p.world edges).Requires name' port' edge' →
    start name + k * port.info.frequency.tokensPerStep =
      start name' + k * port'.info.frequency.tokensPerStep

/-- Whether the next step runs its hook. -/
def Runs (p : Process σ) (edges : Edges) : Prop := (p.calls edges .step).map Call.turn = [.step]

/-- Whether the hook is run in a step. Steps are counted from zero. -/
def RunsAt (p : Process σ) (edges : Edges) (k : Nat) : Prop :=
  ∃ q now, p.steps edges k = (.ok (), q, now) ∧ q.Runs now

theorem runs_iff {p : Process σ} {edges : Edges} (running : p.core.state = .initialized)
    (incomplete : p.core.complete = false) : p.Runs edges ↔ p.judge edges = .step := by
  unfold Runs calls
  by_cases hjudge : p.judge edges = .step
  · simp [running, incomplete, hjudge, call]
  · simp [hjudge]

/-! ## One step -/

variable {p q : Process σ} {edges now : Edges} {count k : Nat} {start : String → Stamp}

theorem Fed.le_length (fed : p.Fed edges count start) {name : String} {port : Port} {edge : EdgeId}
    (hport : (p.world edges).Requires name port edge) :
    count * port.info.frequency.tokensPerStep ≤ (edges.queue edge).length := by
  by_contra hshort
  obtain ⟨token, htoken, -⟩ := fed.supplied hport _ (Nat.lt_of_not_le hshort)
  rw [List.getElem?_eq_none (Nat.le_refl _)] at htoken
  exact nomatch htoken

/-- What so many steps leave of a process and its edges. -/
structure Behind (p : Process σ) (edges : Edges) (k : Nat) (q : Process σ) (now : Edges) : Prop where
  frozen : p.core.Frozen q.core
  plugin_eq : q.plugin = p.plugin
  level_eq : q.core.level = p.core.level
  incomplete : q.core.complete = false
  queue_eq : ∀ {name port edge}, (p.world edges).Requires name port edge →
    now.queue edge = (edges.queue edge).drop (k * port.info.frequency.tokensPerStep)

theorem Behind.first? (h : p.Behind edges k q now) (fed : p.Fed edges count start) (hk : k < count)
    {name : String} {port : Port} {edge : EdgeId} (hport : (p.world edges).Requires name port edge) :
    ∃ token, (q.world now).first? edge = some token ∧
      token.stamp = start name + k * port.info.frequency.tokensPerStep ∧ token.status = .data := by
  have hpos := Nat.pos_of_ne_zero (Nat.ne_of_gt port.info.frequency.tokensPerStep_pos)
  obtain ⟨token, htoken, hstamp, hdata⟩ :=
    fed.supplied hport _ (Nat.mul_lt_mul_of_pos_right hk hpos)
  refine ⟨token, ?_, hstamp, hdata⟩
  change (now.queue edge).head? = some token
  rw [h.queue_eq hport, List.head?_drop]
  exact htoken

theorem Behind.skips_iff (h : p.Behind edges k q now) (fed : p.Fed edges count start) (hk : k < count)
    (checked : p.core.level ≠ .none)
    (synced : ∀ memory, (p.plugin.properties memory).contains .unsyncInput = false) :
    q.Skips now ↔ ¬ p.Aligned edges start k := by
  constructor
  · rintro ⟨-, -, name, port, edge, name', port', edge', token, token', hport, hport', htoken,
      htoken', hne⟩ aligned
    obtain ⟨before, hbefore, -⟩ := h.frozen.symm.requires edges hport
    obtain ⟨before', hbefore', -⟩ := h.frozen.symm.requires edges hport'
    obtain ⟨head, hhead, hstamp, -⟩ := h.first? fed hk hbefore
    obtain ⟨head', hhead', hstamp', -⟩ := h.first? fed hk hbefore'
    obtain rfl := Option.some.inj (htoken.symm.trans hhead)
    obtain rfl := Option.some.inj (htoken'.symm.trans hhead')
    exact hne (hstamp.trans ((aligned hbefore hbefore').trans hstamp'.symm))
  · intro apart
    refine ⟨h.level_eq ▸ checked, h.plugin_eq ▸ synced q.memory, ?_⟩
    simp only [Aligned, not_forall] at apart
    obtain ⟨name, port, edge, name', port', edge', hport, hport', hne⟩ := apart
    obtain ⟨after, hafter, -⟩ := h.frozen.requires now hport
    obtain ⟨after', hafter', -⟩ := h.frozen.requires now hport'
    obtain ⟨head, hhead, hstamp, -⟩ := h.first? fed hk hport
    obtain ⟨head', hhead', hstamp', -⟩ := h.first? fed hk hport'
    refine ⟨name, after, edge, name', after', edge', head, head', hafter, hafter', hhead, hhead', ?_⟩
    rw [hstamp, hstamp']
    exact hne

theorem Behind.judge_of_not_skips (h : p.Behind edges k q now) (fed : p.Fed edges count start)
    (hk : k < count) (hskips : ¬ q.Skips now) : q.judge now = .step := by
  -- All heads are ordinary data, so that nothing is wrong with them.
  have hgravest : (q.world now).Gravest .data := by
    constructor
    · intro name port edge hport
      obtain ⟨before, hbefore, -⟩ := h.frozen.symm.requires edges hport
      obtain ⟨head, hhead, -, hdata⟩ := h.first? fed hk hbefore
      unfold World.statusOn
      rw [hhead, Option.elim_some, hdata]
      decide
    · exact .inl rfl
  rw [Process.judge_of_not_skips hskips, if_neg]
  exact fun hgrave => hgrave.2 (World.gravest_iff.mp hgravest).symm

theorem Behind.free (h : p.Behind edges k q now) (fed : p.Fed edges count start) {name : String}
    {port : Port} {edge : EdgeId} (hport : (p.world edges).Requires name port edge) (out : String)
    (port' : Port) (hout : q.core.port? (.output out) = some port') : edge ∉ port'.edges :=
  h.frozen.free (fun _ => fed.apart hport) port' hout

theorem Behind.drop_succ (h : p.Behind edges k q now) {name : String} {port : Port} {edge : EdgeId}
    (hport : (p.world edges).Requires name port edge) :
    (edges.queue edge).drop ((k + 1) * port.info.frequency.tokensPerStep) =
      (now.queue edge).drop port.info.frequency.tokensPerStep := by
  rw [h.queue_eq hport, List.drop_drop, Nat.succ_mul]

/-- A step that finds the heads out of sync drops what the rates say. -/
theorem Behind.step_of_skips (h : p.Behind edges k q now) (running : q.core.state = .initialized)
    (fed : p.Fed edges count start) (skips : q.Skips now) :
    ∃ q' now', q.step now = (.ok (), q', now') ∧ p.Behind edges (k + 1) q' now' := by
  have hstep := Process.step_of_skips running h.incomplete skips
  have hfrozen := step_frozen running now
  have hcore := (q.world now).send_beat_core false Fault.desync (q.world now).requiredHeads
  rw [hstep] at hfrozen
  refine ⟨_, _, hstep, h.frozen.trans hfrozen, h.plugin_eq, ?_, ?_, fun {name port edge} hport => ?_⟩
  · exact (congrArg Core.level hcore).trans h.level_eq
  · exact congrArg Core.complete hcore
  · obtain ⟨after, hafter, hinfo⟩ := h.frozen.requires now hport
    rw [h.drop_succ hport, ← hinfo]
    apply World.send_beat_drained hafter _ (h.free fed hport)
    intro name' port' hother
    obtain ⟨before, hbefore, -⟩ := h.frozen.symm.requires edges hother
    exact fed.distinct hport hbefore

/-- A step that runs its hook leaves the queues to what the hook takes. -/
theorem Behind.step_of_paced (h : p.Behind edges k q now) (running : q.core.state = .initialized)
    (fed : p.Fed edges count start) (hjudge : q.judge now = .step) (paced : q.Paced now) :
    ∃ q' now', q.step now = (.ok (), q', now') ∧ p.Behind edges (k + 1) q' now' := by
  obtain ⟨q', now', hreact⟩ : ∃ q' now', q.react now q.plugin.step = (.ok (), q', now') :=
    ⟨_, _, Prod.ext paced.succeeds rfl⟩
  have hending : q'.world now' = q.ending now q.plugin.step := by
    rw [← react_world, hreact]
  have hstep : q.step now = (.ok (), q'.inWorld (q'.world now').beat) := by
    rw [step_of_act running h.incomplete, act, hjudge]
    dsimp only
    rw [hreact]
  have hfrozen := step_frozen running now
  have hplugin : q'.plugin = q.plugin := congrArg (fun reacted => reacted.2.1.plugin) hreact.symm
  have hlevel : q'.core.level = q.core.level := by
    rw [← paced.level_eq, ← hending]
    rfl
  have hcomplete : q'.core.complete = q.core.complete := by
    rw [← paced.complete_eq, ← hending]
    rfl
  have hcore := (q'.world now').beat_core
  rw [hstep] at hfrozen
  refine ⟨_, _, hstep, h.frozen.trans hfrozen, hplugin.trans h.plugin_eq, ?_, ?_,
    fun {name port edge} hport => ?_⟩
  · exact (congrArg Core.level hcore).trans (hlevel.trans h.level_eq)
  · exact (congrArg Core.complete hcore).trans (hcomplete.trans h.incomplete)
  · obtain ⟨after, hafter, hinfo⟩ := h.frozen.requires now hport
    have hqueue := step_queue_of_hook running h.incomplete hjudge (h.free fed hport)
    rw [hstep, paced.takes hafter] at hqueue
    rw [h.drop_succ hport, ← hinfo]
    exact hqueue

/-! ## Many steps -/

variable (p) in
theorem behind_steps (running : p.core.state = .initialized) (incomplete : p.core.complete = false)
    (fed : p.Fed edges count start)
    (paced : ∀ k < count, ∀ q now, p.steps edges k = (.ok (), q, now) → q.judge now = .step →
      q.Paced now) (hk : k ≤ count) :
    ∃ q now, p.steps edges k = (.ok (), q, now) ∧ p.Behind edges k q now := by
  -- `Behind` is what every step keeps, whether it skips the hook or runs it.
  induction k with
  | zero =>
    refine ⟨p, edges, rfl, .refl p.core, rfl, rfl, incomplete, fun _ => ?_⟩
    rw [Nat.zero_mul, List.drop_zero]
  | succ k ih =>
    obtain ⟨q, now, hsteps, hbehind⟩ := ih (Nat.le_of_succ_le hk)
    have hrunning : q.core.state = .initialized := hbehind.frozen.state_eq.trans running
    suffices hnext : ∃ q' now', q.step now = (.ok (), q', now') ∧ p.Behind edges (k + 1) q' now' by
      obtain ⟨q', now', hstep, hafter⟩ := hnext
      refine ⟨q', now', ?_, hafter⟩
      rw [steps_succ, hsteps]
      exact hstep
    by_cases hskips : q.Skips now
    · exact hbehind.step_of_skips hrunning fed hskips
    · have hjudge := hbehind.judge_of_not_skips fed hk hskips
      exact hbehind.step_of_paced hrunning fed hjudge (paced k hk q now hsteps hjudge)

theorem Behind.judge_iff (h : p.Behind edges k q now) (fed : p.Fed edges count start) (hk : k < count)
    (checked : p.core.level ≠ .none)
    (synced : ∀ memory, (p.plugin.properties memory).contains .unsyncInput = false) :
    q.judge now = .step ↔ p.Aligned edges start k := by
  rw [← not_iff_not, ← h.skips_iff fed hk checked synced]
  constructor
  · intro hjudge
    by_contra hskips
    exact hjudge (h.judge_of_not_skips fed hk hskips)
  · intro hskips hjudge
    exact nomatch (judge_of_skips hskips).symm.trans hjudge

/-- Inputs of one rate keep their distance. -/
theorem aligned_of_rate {rate : Nat} (hrate : ∀ {name port edge},
    (p.world edges).Requires name port edge → port.info.frequency.tokensPerStep = rate)
    (h : p.Aligned edges start k) : p.Aligned edges start 0 := by
  intro name port edge name' port' edge' hport hport'
  have hmet := h hport hport'
  rw [hrate hport, hrate hport'] at hmet
  rw [Nat.zero_mul, Nat.zero_mul]
  exact Nat.add_right_cancel hmet

/-- Inputs of two rates meet once at most. -/
theorem eq_of_aligned {l : Nat} {name name' : String} {port port' : Port} {edge edge' : EdgeId}
    (hport : (p.world edges).Requires name port edge)
    (hport' : (p.world edges).Requires name' port' edge')
    (hne : port.info.frequency.tokensPerStep ≠ port'.info.frequency.tokensPerStep)
    (hk : p.Aligned edges start k) (hl : p.Aligned edges start l) : k = l := by
  have hmet := hk hport hport'
  have hmet' := hl hport hport'
  generalize port.info.frequency.tokensPerStep = rate at *
  generalize port'.info.frequency.tokensPerStep = rate' at *
  -- From one meeting to the other, both inputs have gone equally far.
  have hgone : ((k : ℤ) - l) * (rate - rate') = 0 := by
    zify at hmet hmet'
    linear_combination hmet - hmet'
  rcases mul_eq_zero.mp hgone with h | h
  · omega
  · omega

/-- Before every step the head of a required input is as many data farther on as its rate says, once
for each step so far, and so many data have been taken from its edge. A step runs its hook if all
heads are at one place, and finds them out of sync otherwise. So inputs of one rate that start apart
are never brought together, and inputs of two rates meet in one step at most. -/
theorem steps_by_rate (p : Process σ) {edges : Edges} {count : Nat} {start : String → Stamp}
    (running : p.core.state = .initialized) (incomplete : p.core.complete = false)
    (checked : p.core.level ≠ .none)
    (synced : ∀ memory, (p.plugin.properties memory).contains .unsyncInput = false)
    (fed : p.Fed edges count start)
    (paced : ∀ k < count, ∀ q now, p.steps edges k = (.ok (), q, now) → q.judge now = .step →
      q.Paced now) :
    (∀ k ≤ count, ∃ q now, p.steps edges k = (.ok (), q, now) ∧
        (∀ {name port edge}, (p.world edges).Requires name port edge → ∃ removed,
          edges.queue edge = removed ++ now.queue edge ∧
            removed.length = k * port.info.frequency.tokensPerStep) ∧
        (k < count →
          (∀ {name port edge}, (p.world edges).Requires name port edge → ∃ token,
            (now.queue edge).head? = some token ∧
              token.stamp = start name + k * port.info.frequency.tokensPerStep) ∧
          (q.Runs now ↔ p.Aligned edges start k) ∧
          (¬ p.Aligned edges start k → q.calls now .step = [] ∧
            q.fault? now .step = some Fault.desync))) ∧
      (∀ rate, (∀ {name port edge}, (p.world edges).Requires name port edge →
          port.info.frequency.tokensPerStep = rate) →
        ¬ p.Aligned edges start 0 → ∀ k < count, ¬ p.RunsAt edges k) ∧
      ∀ {name port edge name' port' edge'}, (p.world edges).Requires name port edge →
        (p.world edges).Requires name' port' edge' →
        port.info.frequency.tokensPerStep ≠ port'.info.frequency.tokensPerStep →
        ∀ k < count, ∀ l < count, p.RunsAt edges k → p.RunsAt edges l → k = l := by
  have hbehind {k : Nat} (hk : k ≤ count) := p.behind_steps running incomplete fed paced hk
  have hjudge {k : Nat} (hk : k < count) {q : Process σ} {now : Edges}
      (h : p.Behind edges k q now) : q.judge now = .step ↔ p.Aligned edges start k :=
    h.judge_iff fed hk checked synced
  have hruns {k : Nat} (hk : k < count) {q : Process σ} {now : Edges}
      (h : p.Behind edges k q now) : q.Runs now ↔ p.Aligned edges start k :=
    (runs_iff (h.frozen.state_eq.trans running) h.incomplete).trans (hjudge hk h)
  have haligned {k : Nat} (hk : k < count) (h : p.RunsAt edges k) : p.Aligned edges start k := by
    obtain ⟨q, now, hsteps, hrun⟩ := h
    obtain ⟨q', now', hsteps', hafter⟩ := hbehind (Nat.le_of_lt hk)
    obtain ⟨-, hsame⟩ := Prod.mk.inj (hsteps.symm.trans hsteps')
    obtain ⟨rfl, rfl⟩ := Prod.mk.inj hsame
    exact (hruns hk hafter).mp hrun
  refine ⟨fun k hk => ?_, fun rate hrate hapart k hk hrun => ?_, ?_⟩
  · obtain ⟨q, now, hsteps, hafter⟩ := hbehind hk
    refine ⟨q, now, hsteps, fun {name port edge} hport => ?_, fun hlt => ⟨?_, hruns hlt hafter, ?_⟩⟩
    · have hlength := Nat.le_trans (Nat.mul_le_mul_right port.info.frequency.tokensPerStep hk)
        (fed.le_length hport)
      refine ⟨(edges.queue edge).take (k * port.info.frequency.tokensPerStep), ?_,
        List.length_take_of_le hlength⟩
      rw [hafter.queue_eq hport, List.take_append_drop]
    · intro name port edge hport
      obtain ⟨token, htoken, hstamp, -⟩ := hafter.first? fed hlt hport
      exact ⟨token, htoken, hstamp⟩
    · intro hapart
      have hskips := (hafter.skips_iff fed hlt checked synced).mpr hapart
      have hrunning := hafter.frozen.state_eq.trans running
      constructor
      · rw [calls, if_neg]
        exact fun h => hapart ((hjudge hlt hafter).mp h.2.2)
      · rw [fault?, if_pos ⟨hrunning, hafter.incomplete⟩, judge_of_skips hskips]
        rfl
  · exact hapart (aligned_of_rate hrate (haligned hk hrun))
  · intro name port edge name' port' edge' hport hport' hne k hk l hl hrun hrun'
    exact eq_of_aligned hport hport' hne (haligned hk hrun) (haligned hl hrun')

/-! ## Two rates -/

/-- What an input of so many data in a step is known by. -/
def pacedInput (rate : UInt32) : PortInfo := ⟨.any, .ofList [.required], "", .integral rate⟩

/-- A plugin that takes two data from the right for every one from the left. -/
def strider : Plugin Unit :=
  { Plugin.idle Unit with
    declare := do
      Reaction.request (.declare (.input "left") (pacedInput 1))
      Reaction.request (.declare (.input "right") (pacedInput 2))
    step := do
      let _ ← Reaction.request (.grab "left")
      let _ ← Reaction.request (.grab "right")
      let _ ← Reaction.request (.grab "right") }

def striding : Process Unit :=
  (create ∅ strider () .empty).2.1.follow
    [(.empty, .configure), (.empty, .connect (.input "left") (some ⟨0⟩)),
     (.empty, .connect (.input "right") (some ⟨1⟩)), (.empty, .init)]

/-- Data for two steps, of which the left input has those of a place farther on. -/
def lanes : Edges :=
  let datum : Datum := .payload (.scalar (.bool true))
  let left := [1, 2].foldl (fun store stamp => store.push ⟨0⟩ ⟨stamp, datum⟩) Edges.empty
  [0, 1, 2, 3].foldl (fun store stamp => store.push ⟨1⟩ ⟨stamp, datum⟩) left

theorem lane_of_requires {w : World}
    (hheads : w.requiredHeads.map (fun head => (head.port, head.frequency)) =
      [("left", .integral 1), ("right", .integral 2)])
    (hleft : w.inputEdge? "left" = some ⟨0⟩) (hright : w.inputEdge? "right" = some ⟨1⟩)
    {name : String} {port : Port} {edge : EdgeId} (h : w.Requires name port edge) :
    (name = "left" ∧ port.info.frequency = .integral 1 ∧ edge = ⟨0⟩) ∨
      (name = "right" ∧ port.info.frequency = .integral 2 ∧ edge = ⟨1⟩) := by
  have hmem : (name, port.info.frequency) ∈
      w.requiredHeads.map fun head => (head.port, head.frequency) :=
    List.mem_map.mpr ⟨_, World.mem_requiredHeads.mpr ⟨name, port, edge, h, rfl⟩, rfl⟩
  have hedge : w.inputEdge? name = some edge := by
    rw [World.inputEdge?, h.declared]
    exact h.bound
  rw [hheads] at hmem
  simp only [List.mem_cons, List.not_mem_nil, or_false, Prod.mk.injEq] at hmem
  rcases hmem with ⟨rfl, hrate⟩ | ⟨rfl, hrate⟩
  · exact .inl ⟨rfl, hrate, Option.some.inj (hedge.symm.trans hleft)⟩
  · exact .inr ⟨rfl, hrate, Option.some.inj (hedge.symm.trans hright)⟩

theorem lane_of_striding {name : String} {port : Port} {edge : EdgeId}
    (h : (striding.world lanes).Requires name port edge) :
    (name = "left" ∧ port.info.frequency = .integral 1 ∧ edge = ⟨0⟩) ∨
      (name = "right" ∧ port.info.frequency = .integral 2 ∧ edge = ⟨1⟩) :=
  lane_of_requires (by decide +kernel) (by decide +kernel) (by decide +kernel) h

theorem striding_fed : striding.Fed lanes 2 fun name => if name = "left" then 1 else 0 where
  distinct h h' := by
    rcases lane_of_striding h with ⟨rfl, -, rfl⟩ | ⟨rfl, -, rfl⟩ <;>
      rcases lane_of_striding h' with ⟨rfl, -, hedge⟩ | ⟨rfl, -, hedge⟩
    · rfl
    · exact absurd hedge (by decide)
    · exact absurd hedge (by decide)
    · rfl
  apart {name port edge out port'} _ hport' := by
    have hout : out ∈ striding.core.portNames .output := Core.mem_portNames.mpr ⟨port', hport'⟩
    have hnames : striding.core.portNames .output = [Core.heartbeat] := by
      decide +kernel
    obtain rfl := List.mem_singleton.mp (hnames ▸ hout)
    have hfree : (striding.core.port? (.output Core.heartbeat)).map Port.edges = some [] := by
      decide +kernel
    rw [hport', Option.map_some] at hfree
    rw [Option.some.inj hfree]
    exact List.not_mem_nil
  integral h := by
    rcases lane_of_striding h with ⟨-, hrate, -⟩ | ⟨-, hrate, -⟩
    · exact ⟨1, by decide, hrate⟩
    · exact ⟨2, by decide, hrate⟩
  supplied h i hi := by
    have hleft : ∀ i < 2, ((lanes.queue ⟨0⟩)[i]?).map (fun token => (token.stamp, token.status)) =
        some (1 + i, .data) := by
      decide +kernel
    have hright : ∀ i < 4, ((lanes.queue ⟨1⟩)[i]?).map (fun token => (token.stamp, token.status)) =
        some (0 + i, .data) := by
      decide +kernel
    rcases lane_of_striding h with ⟨rfl, hrate, rfl⟩ | ⟨rfl, hrate, rfl⟩
    · rw [hrate] at hi
      obtain ⟨token, htoken, hview⟩ := Option.map_eq_some_iff.mp (hleft i hi)
      exact ⟨token, htoken, Prod.mk.inj hview⟩
    · rw [hrate] at hi
      obtain ⟨token, htoken, hview⟩ := Option.map_eq_some_iff.mp (hright i hi)
      exact ⟨token, htoken, Prod.mk.inj hview⟩

def strode : Process Unit × Edges := (striding.step lanes).2

theorem strode_paced : strode.1.Paced strode.2 where
  succeeds := by
    rfl
  takes h := by
    have htaken (edge : EdgeId) (hedge : edge = ⟨0⟩ ∨ edge = ⟨1⟩) :
        ((strode.1.plugin.step strode.1.memory).taken (strode.1.world strode.2) edge).length =
          edge.val + 1 := by
      rcases hedge with rfl | rfl
      all_goals decide +kernel
    rcases lane_of_requires (by decide +kernel) (by decide +kernel) (by decide +kernel) h with
      ⟨rfl, hrate, rfl⟩ | ⟨rfl, hrate, rfl⟩
    · rw [hrate]
      exact htaken _ (.inl rfl)
    · rw [hrate]
      exact htaken _ (.inr rfl)
  level_eq := by
    decide +kernel
  complete_eq := by
    decide +kernel

/-- The first step is passed over, the second one runs the hook. -/
theorem steps_by_rate_striding :
    striding.core.state = .initialized ∧ striding.core.complete = false ∧
      striding.core.level ≠ .none ∧
      striding.Fed lanes 2 (fun name => if name = "left" then 1 else 0) ∧
      ¬ striding.RunsAt lanes 0 ∧ striding.RunsAt lanes 1 := by
  have running : striding.core.state = .initialized := by
    decide +kernel
  have incomplete : striding.core.complete = false := by
    decide +kernel
  have checked : striding.core.level ≠ .none := by
    decide +kernel
  have paced : ∀ k < 2, ∀ q now, striding.steps lanes k = (.ok (), q, now) → q.judge now = .step →
      q.Paced now := by
    intro k hk q now hsteps hjudge
    match k, hk with
    | 0, _ =>
      obtain ⟨rfl, rfl⟩ := Prod.mk.inj (Prod.mk.inj hsteps).2
      exact absurd hjudge (by decide +kernel)
    | 1, _ =>
      have hstep : striding.step lanes = (.ok (), q, now) :=
        (striding.steps_succ lanes 0).symm.trans hsteps
      have hstrode : strode = (q, now) := congrArg Prod.snd hstep
      obtain ⟨rfl, rfl⟩ := Prod.mk.inj hstrode
      exact strode_paced
  have hleft : striding.core.port? (.input "left") = some ⟨.any, pacedInput 1, [⟨0⟩], .first⟩ := by
    decide +kernel
  have hright : striding.core.port? (.input "right") = some ⟨.any, pacedInput 2, [⟨1⟩], .first⟩ := by
    decide +kernel
  obtain ⟨hsteps, -, honce⟩ :=
    striding.steps_by_rate running incomplete checked (fun _ => rfl) striding_fed paced
  have hruns : striding.RunsAt lanes 1 := by
    obtain ⟨q, now, hstep, -, hstands⟩ := hsteps 1 (by decide)
    refine ⟨q, now, hstep, (hstands (by decide)).2.1.mpr ?_⟩
    intro name port edge name' port' edge' h h'
    rcases lane_of_striding h with ⟨rfl, hrate, -⟩ | ⟨rfl, hrate, -⟩ <;>
      rcases lane_of_striding h' with ⟨rfl, hrate', -⟩ | ⟨rfl, hrate', -⟩
    all_goals simp only [hrate, hrate']
    all_goals decide
  refine ⟨running, incomplete, checked, striding_fed, fun hfirst => ?_, hruns⟩
  have hmet := honce ⟨hleft, rfl, rfl⟩ ⟨hright, rfl, rfl⟩ (by decide) 0 (by decide) 1 (by decide)
    hfirst hruns
  exact absurd hmet (by decide)

end Process

end Dataflow
