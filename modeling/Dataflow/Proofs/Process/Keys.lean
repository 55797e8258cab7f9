import Dataflow.Proofs.Process.Freeze
import Dataflow.Proofs.Process.Protocol

/-!
# Keys of a running process

A key stays as it is declared. But while the initialization ends all declarations of ports, it does
not end those of keys: the hooks of a running process may declare new ones, and tunable ones can be
set from then on. `follow_keys` says which keys a running process has.
-/

namespace Dataflow

/-- The key that a request asks to be declared, with what is to be known of it. -/
def Request.key? : Request → Option (String × KeyInfo)
  | .declareKey key declared => some (key, declared)
  | _ => none

namespace Core

theorem declareKey_infos (c : Core) (key : String) (info : KeyInfo) (other : String) :
    (c.declareKey key info).2.registry.infos[other]? =
      c.registry.infos[other]?.or ([(key, info)].lookup other) := by
  have hlookup : [(key, info)].lookup other = if other = key then some info else none := by
    by_cases hother : other = key
    · rw [if_pos hother, hother, List.lookup_cons_self]
    · rw [if_neg hother, List.lookup_cons, beq_eq_false_iff_ne.mpr hother]
      rfl
  rw [declareKey_registry, Registry.enter_infos, Registry.Entry.info?, hlookup]
  exact congrArg _ (if_congr eq_comm rfl rfl)

end Core

namespace World

/-- In a running process, a request adds no key but the one that it declares. -/
theorem perform_infos {w : World} (running : w.core.state = .initialized) (r : Request)
    (key : String) :
    (w.perform r).2.core.registry.infos[key]? =
      w.core.registry.infos[key]?.or (r.key?.toList.lookup key) := by
  have hsame (after : Core) (h : after.registry = w.core.registry) :
      after.registry.infos[key]? = w.core.registry.infos[key]?.or none := by
    rw [h, Option.or_none]
  cases r with
  | declareKey other info => exact w.core.declareKey_infos other info key
  | grab port => exact hsame _ (congrArg Core.registry (w.grab_core port))
  | grabAs port kind => exact hsame _ (congrArg Core.registry (w.grabAs_core port kind))
  | grabInput port kind => exact hsame _ (congrArg Core.registry (w.grabInput_core port kind))
  | push port datum =>
    have hcore := congrArg Core.registry (w.push_core port datum)
    exact hsame _ hcore
  | declare port info =>
    -- No port is declared in a running process, and so no key comes with one.
    refine hsame (w.core.declare port info).2 ?_
    rw [Core.declare, if_pos running]
  | remove port => exact hsame _ (w.core.remove_registry port)
  | setFrequency port frequency => exact hsame _ (w.core.setFrequency_registry port frequency)
  | resolve port proposed => exact hsame _ (w.core.resolve_registry port proposed)
  | name | typeName | state | isComplete | level | portNames _ | config | debug | info _
  | hasEdge _ | countEdges _ | nextStamp _ | value _ _ | peek _ _ | setLevel _ | markComplete =>
    exact hsame _ rfl

end World

namespace Hook

/-- The keys that a hook asks to be declared, in their order. -/
def keys {α : Type} : Hook α → World → List (String × KeyInfo)
  | done _, _ => []
  | ask request next, w =>
    request.key?.toList ++ (next (w.perform request).1).keys (w.perform request).2

theorem run_infos {α : Type} (h : Hook α) {w : World} (running : w.core.state = .initialized)
    (key : String) :
    (h.run w).2.core.registry.infos[key]? =
      w.core.registry.infos[key]?.or ((h.keys w).lookup key) := by
  induction h generalizing w with
  | done result => exact Option.or_none.symm
  | ask request next ih =>
    have hrunning : (w.perform request).2.core.state = .initialized :=
      (w.perform_state request).trans running
    have hrest := ih (w.perform request).1 hrunning
    rw [run_ask, hrest, World.perform_infos running, keys, List.lookup_append, Option.or_assoc]

end Hook

namespace Process

variable {σ : Type}

/-- The keys that the hook of a running process asks to be declared during a command. -/
def keysAsked (p : Process σ) (edges : Edges) : Command → List (String × KeyInfo)
  | .step =>
    if p.core.complete = false ∧ p.judge edges = .step then
      (p.plugin.step p.memory).keys (p.world edges)
    else []
  | .reconfigure update =>
    (p.plugin.reconfigure update p.memory).keys ((p.retuned update).world edges)
  | _ => []

/-- The keys that are asked for by all hooks of a running process, in their order. -/
def keysAskedAlong (p : Process σ) : List (Edges × Command) → List (String × KeyInfo)
  | [] => []
  | (edges, command) :: rest =>
    p.keysAsked edges command ++ (p.perform edges command).2.1.keysAskedAlong rest

theorem step_infos {p : Process σ} (running : p.core.state = .initialized) (edges : Edges)
    (key : String) :
    (p.step edges).2.1.core.registry.infos[key]? =
      p.core.registry.infos[key]?.or ((p.keysAsked edges .step).lookup key) := by
  rw [p.step_view Core.registry (fun _ _ => rfl) (fun _ _ => rfl) edges, keysAsked]
  by_cases h : p.core.complete = false ∧ p.judge edges = .step
  · rw [if_pos ⟨running, h⟩, if_pos h]
    exact Hook.run_infos _ running key
  · rw [if_neg (fun hc => h hc.2), if_neg h]
    exact Option.or_none.symm

theorem reconfigure_infos {p : Process σ} (running : p.core.state = .initialized) (edges : Edges)
    (update : Config) (key : String) :
    (p.reconfigure edges update).2.1.core.registry.infos[key]? =
      p.core.registry.infos[key]?.or ((p.keysAsked edges (.reconfigure update)).lookup key) := by
  rw [reconfigure_after running]
  exact Hook.run_infos (w := (p.retuned update).world edges) _ running key

/-- A running process that is refused a command has no other keys after it. -/
theorem refused_infos {p : Process σ} {edges : Edges} {command : Command}
    (refuses : p.Refuses command) (hasked : p.keysAsked edges command = []) (key : String) :
    (p.perform edges command).2.1.core.registry.infos[key]? =
      p.core.registry.infos[key]?.or ((p.keysAsked edges command).lookup key) := by
  obtain ⟨-, e, hperform⟩ := (p.lawful edges command).refused refuses
  rw [hperform, hasked]
  exact Option.or_none.symm

theorem perform_infos {p : Process σ} (running : p.core.state = .initialized) (edges : Edges)
    {command : Command} (noReset : command ≠ .reset) (key : String) :
    (p.perform edges command).2.1.core.registry.infos[key]? =
      p.core.registry.infos[key]?.or ((p.keysAsked edges command).lookup key) := by
  have started : p.core.state ≠ .created ∧ p.core.state ≠ .configured := by
    rw [running]
    decide
  cases command with
  | configure =>
    have refuses : p.Refuses .configure := started.1
    exact refused_infos refuses rfl key
  | init =>
    have refuses : p.Refuses .init := started.2
    exact refused_infos refuses rfl key
  | reset => exact absurd rfl noReset
  | step => exact step_infos running edges key
  | reconfigure update => exact reconfigure_infos running edges update key
  | connect port edge? =>
    have refuses : p.Refuses (.connect port edge?) := .inr (.inl started.2)
    exact refused_infos refuses rfl key
  | setType port proposed =>
    have refuses : p.Refuses (.setType port proposed) := .inl running
    exact refused_infos refuses rfl key

theorem follow_infos {p : Process σ} {commands : List (Edges × Command)}
    (running : p.core.state = .initialized) (noReset : NoReset commands) (key : String) :
    (p.follow commands).core.registry.infos[key]? =
      p.core.registry.infos[key]?.or ((p.keysAskedAlong commands).lookup key) := by
  induction commands generalizing p with
  | nil => exact Option.or_none.symm
  | cons given rest ih =>
    obtain ⟨edges, command⟩ := given
    obtain ⟨hhere, hlater⟩ := List.forall_mem_cons.mp noReset
    have hrest := ih (perform_running running edges hhere) hlater
    rw [follow, hrest, perform_infos running edges hhere, keysAskedAlong, List.lookup_append,
      Option.or_assoc]

/-- A running process that is given commands, but no reset, keeps its keys as they are declared. A
key that it has besides is one that its hooks asked for, as it was asked for first. -/
theorem follow_keys (p : Process σ) {commands : List (Edges × Command)}
    (running : p.core.state = .initialized) (noReset : NoReset commands) :
    let after := (p.follow commands).core.registry
    (∀ key info, p.core.registry.info key = .ok info → after.info key = .ok info) ∧
      (∀ key, after.infos[key]? =
        p.core.registry.infos[key]?.or ((p.keysAskedAlong commands).lookup key)) ∧
      (p.keysAskedAlong commands = [] →
        after.available = p.core.registry.available ∧ after.tunable = p.core.registry.tunable) := by
  intro after
  have hkept : p.core.registry.Kept after := (p.course_frozen running noReset).2.2
  have hinfos (key : String) : after.infos[key]? =
      p.core.registry.infos[key]?.or ((p.keysAskedAlong commands).lookup key) :=
    follow_infos running noReset key
  refine ⟨fun key info => hkept.info, hinfos, fun hnone => ?_⟩
  have hsame : after.infos = p.core.registry.infos := by
    apply Std.ExtTreeMap.ext_getElem?
    intro key
    rw [hinfos key, hnone]
    exact Option.or_none
  have htunable : after.isTunable = p.core.registry.isTunable := by
    funext key
    rw [Registry.isTunable, hsame, Registry.isTunable]
  have havailable : after.available = p.core.registry.available := by
    rw [Registry.available, hsame, Registry.available]
  exact ⟨havailable, by rw [Registry.tunable, Registry.tunable, havailable, htunable]⟩

/-- A plugin that declares a tunable key at every step. -/
def latecomer : Plugin Unit :=
  { Plugin.idle Unit with step := Reaction.request (.declareKey "late" ⟨"0", "", true⟩) }

/-- The latecomer, running. -/
def late : Process Unit :=
  (create ∅ latecomer () .empty).2.1.follow [(.empty, .configure), (.empty, .init)]

/-- The second step asks for the key again, and is refused. -/
theorem follow_keys_late :
    late.core.state = .initialized ∧ NoReset [(Edges.empty, .step), (Edges.empty, .step)] ∧
      (late.follow [(.empty, .step), (.empty, .step)]).core.registry.infos["late"]? =
        some ⟨"0", "", true⟩ ∧
      (late.follow [(.empty, .step), (.empty, .step)]).core.registry.info "_name" =
        .ok Core.nameInfo := by
  have running : late.core.state = .initialized := by
    decide +kernel
  have noReset : NoReset [(Edges.empty, .step), (Edges.empty, .step)] := by
    simp [NoReset]
  have hname : late.core.registry.info "_name" = .ok Core.nameInfo := by
    rw [Registry.info_eq_ok]
    decide +kernel
  have hnew : late.core.registry.infos["late"]? = none := by
    decide +kernel
  have hasked : (late.keysAskedAlong [(.empty, .step), (.empty, .step)]).lookup "late" =
      some ⟨"0", "", true⟩ := by
    decide +kernel
  obtain ⟨hkept, hinfos, -⟩ := late.follow_keys running noReset
  refine ⟨running, noReset, ?_, hkept _ _ hname⟩
  rw [hinfos, hnew, hasked]
  rfl

/-- The initialization does not freeze the keys: a step declares one, and it can be set. -/
theorem keys_not_frozen :
    late.core.state = .initialized ∧ NoReset [(Edges.empty, .step)] ∧
      late.core.registry.available = ["_name", "_type"] ∧ late.core.registry.tunable = [] ∧
      (late.follow [(.empty, .step)]).core.registry.available = ["_name", "_type", "late"] ∧
      (late.follow [(.empty, .step)]).core.registry.tunable = ["late"] ∧
      ((late.follow [(.empty, .step)]).reconfigure .empty (Config.empty.set "late" "1")).1.toOption =
        some ["late"] := by
  have noReset : NoReset [(Edges.empty, .step)] := by
    simp [NoReset]
  refine ⟨?_, noReset, ?_, ?_, ?_, ?_, ?_⟩
  all_goals decide +kernel

end Process

end Dataflow
