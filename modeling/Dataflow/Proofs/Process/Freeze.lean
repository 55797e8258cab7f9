import Dataflow.Proofs.Process.Life
import Dataflow.Proofs.Registry.Kept

/-!
# What the initialization freezes

After the initialization of a process its ports and their edges stay until a reset, and a key that
is not tunable keeps its text. Hooks may ask for anything meanwhile, and commands may fail.
-/

namespace Dataflow

namespace Core

theorem declareStatic_kept {r after : Registry} {key : PortKey} {flags : Flags}
    (h : declareStatic r key flags = .ok after) : r.Kept after := by
  rw [declareStatic] at h
  split at h
  · exact Registry.declare_kept h
  · exact Except.ok.inj h ▸ .refl r

theorem Touched.kept {c after : Core} (h : c.Touched after) : c.registry.Kept after.registry := by
  cases h with
  | declared _ _ _ static => exact declareStatic_kept static
  | keyed new => exact Registry.declare_kept new
  | @settled key type _ _ _ _ _ =>
    have hrest := congrArg Core.registry (c.settle_rest key type)
    change (c.settle key type).2.registry = c.registry at hrest
    rw [hrest]
    exact .refl _
  | same | removed | retimed | leveled | completed | sent => exact .refl _

/-- Keys outlive everything, even a reset. -/
theorem Moved.kept {resets : Prop} {c after : Core} (h : c.Moved resets after) :
    c.registry.Kept after.registry := by
  cases h with
  | touched h => exact h.kept
  | retuned => exact c.registry.reconfigure_kept _
  | rewound =>
    rw [Core.rewound]
    split <;> exact .refl _
  | configured | initialized | connected | faulted => exact .refl _

/-- In an initialized core only stamps, keys, level and mark are left to be moved. -/
theorem Moved.frozen {c after : Core} (h : c.Moved False after) (running : c.state = .initialized) :
    c.Frozen after := by
  have hlate (other : State) (hother : c.state = other) : other = .initialized :=
    hother.symm.trans running
  cases h with
  | touched h => exact h.frozen running
  -- These are moves of a process that does not run yet.
  | configured created => exact nomatch hlate _ created
  | initialized configured => exact nomatch hlate _ configured
  | connected configured => exact nomatch hlate _ configured
  | retuned => exact ⟨rfl, rfl, fun _ => rfl⟩
  | faulted =>
    have hadvance := c.frozen_advance fun _ => true
    exact ⟨rfl, rfl, hadvance.port_eq⟩
  | rewound h => exact h.elim

/-- The required inputs stay, with what is known of them. -/
theorem Frozen.requires {c after : Core} (h : c.Frozen after) {edges : Edges} (edges' : Edges)
    {name : String} {port : Port} {edge : EdgeId} (hport : World.Requires ⟨c, edges⟩ name port edge) :
    ∃ port', World.Requires ⟨after, edges'⟩ name port' edge ∧ port'.info = port.info := by
  have hview : (after.port? (.input name)).map (fun port => (port.info, port.edges)) =
      (c.port? (.input name)).map fun port => (port.info, port.edges) :=
    h.map_eq (fun _ _ => rfl) (.input name)
  have hdeclared : c.port? (.input name) = some port := hport.declared
  rw [hdeclared, Option.map_some] at hview
  obtain ⟨port', hport', hsame⟩ := Option.map_eq_some_iff.mp hview
  obtain ⟨hinfo, hedges⟩ := Prod.mk.inj hsame
  refine ⟨port', ⟨hport', ?_, ?_⟩, hinfo⟩
  · rw [hinfo]
    exact hport.required
  · rw [hedges]
    exact hport.bound

theorem Frozen.portNames_eq {c after : Core} (h : c.Frozen after) (direction : Direction) :
    after.portNames direction = c.portNames direction := by
  have hports : after.ports.map (fun _ port => { port with stamp := .first }) =
      c.ports.map fun _ port => { port with stamp := .first } := by
    apply Std.ExtTreeMap.ext_getElem?
    intro key
    rw [Std.ExtTreeMap.getElem?_map, Std.ExtTreeMap.getElem?_map]
    exact h.port_eq key
  have hkeys := congrArg Std.ExtTreeMap.keys hports
  rw [Std.ExtTreeMap.keys_map, Std.ExtTreeMap.keys_map] at hkeys
  rw [portNames, portNames, hkeys]

end Core

namespace Process

variable {σ : Type}

/-- Whether no command is a reset. -/
def NoReset (commands : List (Edges × Command)) : Prop := ∀ given ∈ commands, given.2 ≠ .reset

/-- Where a process is after its commands, its course has been. -/
theorem follow_mem_course (p : Process σ) (commands : List (Edges × Command)) {first : World}
    (hfirst : first.core = p.core) :
    ∃ w ∈ first :: p.course commands, w.core = (p.follow commands).core := by
  induction commands generalizing p first with
  | nil => exact ⟨first, List.mem_cons_self, hfirst⟩
  | cons given rest ih =>
    obtain ⟨edges, command⟩ := given
    have hbehind : (p.behind edges command).core = (p.perform edges command).2.1.core := rfl
    obtain ⟨w, hw, hcore⟩ := ih (p.perform edges command).2.1 hbehind
    exact ⟨w, List.mem_cons_of_mem _ (List.mem_append_right _ hw), hcore⟩

/-- Whether a process was made, and given commands since. -/
def Reached (p : Process σ) : Prop :=
  ∃ config memory edges commands, (create config p.plugin memory edges).1 = .ok () ∧
    (create config p.plugin memory edges).2.1.follow commands = p

/-- The core of such a process is found in a life. -/
theorem Reached.in_life {p : Process σ} (h : p.Reached) :
    ∃ config memory edges commands, ∃ w ∈ life config p.plugin memory edges commands,
      w.core = p.core := by
  obtain ⟨config, memory, edges, commands, made, hfollow⟩ := h
  have hlast := (p.plugin.declare memory).getLast?_trail ⟨.ofConfig config, edges⟩
  have hfirst := (create_core config p.plugin memory edges).symm
  obtain ⟨w, hw, hcore⟩ :=
    (create config p.plugin memory edges).2.1.follow_mem_course commands hfirst
  refine ⟨config, memory, edges, commands, w, ?_, hcore.trans (congrArg Process.core hfollow)⟩
  rw [life]
  -- The course begins where the hook of the making ends.
  rcases List.mem_cons.mp hw with rfl | hw
  · exact List.mem_append_left _ (List.mem_of_getLast? hlast)
  · refine List.mem_append_right _ ?_
    generalize create config p.plugin memory edges = attempt at made hw ⊢
    obtain ⟨result, first, after⟩ := attempt
    obtain rfl : result = .ok () := made
    exact hw

/-- What no move of a core ends but a reset, holds in all worlds of a course and behind it. -/
theorem course_keeps {P : Core → Prop}
    (keeps : ∀ c after : Core, c.Moved False after → P c → P after) (p : Process σ)
    {commands : List (Edges × Command)} (noReset : NoReset commands) (hp : P p.core) :
    (∀ w ∈ p.course commands, P w.core) ∧ P (p.follow commands).core := by
  have hfirst : (p.world .empty).core = p.core := rfl
  have hresets : (∃ given ∈ commands, given.2 = .reset) → False :=
    fun ⟨given, hgiven, hreset⟩ => noReset given hgiven hreset
  have hchain := (p.unbroken_course commands hfirst).mono hresets
  have hcourse : ∀ w ∈ p.course commands, P w.core :=
    hchain.cons_induction (fun w => P w.core) _ (fun _ _ moved => keeps _ _ moved) hp
  obtain ⟨w, hw, hcore⟩ := p.follow_mem_course commands hfirst
  refine ⟨hcourse, hcore ▸ ?_⟩
  rcases List.mem_cons.mp hw with rfl | hw
  · exact hp
  · exact hcourse w hw

/-- In all worlds of a running process, ports, edges and untunable keys are as they were. -/
theorem course_frozen (p : Process σ) {commands : List (Edges × Command)}
    (running : p.core.state = .initialized) (noReset : NoReset commands) :
    (∀ w ∈ p.course commands, p.core.Frozen w.core ∧ p.core.registry.Kept w.core.registry) ∧
      p.core.Frozen (p.follow commands).core ∧
      p.core.registry.Kept (p.follow commands).core.registry := by
  refine p.course_keeps (P := fun c => p.core.Frozen c ∧ p.core.registry.Kept c.registry) ?_ noReset
    ⟨.refl _, .refl _⟩
  intro c after moved h
  obtain ⟨frozen, kept⟩ := h
  have hrunning : c.state = .initialized := frozen.state_eq.trans running
  exact ⟨frozen.trans (moved.frozen hrunning), kept.trans moved.kept⟩

theorem perform_frozen {p : Process σ} (running : p.core.state = .initialized) (edges : Edges)
    {command : Command} (noReset : command ≠ .reset) :
    p.core.Frozen (p.perform edges command).2.1.core := by
  have hcommands : NoReset [(edges, command)] := List.forall_mem_singleton.mpr noReset
  exact (p.course_frozen running hcommands).2.1

theorem step_frozen {p : Process σ} (running : p.core.state = .initialized) (edges : Edges) :
    p.core.Frozen (p.step edges).2.1.core := by
  have noReset : Command.step ≠ .reset := nofun
  exact perform_frozen running edges noReset

theorem perform_running {p : Process σ} (running : p.core.state = .initialized) (edges : Edges)
    {command : Command} (noReset : command ≠ .reset) :
    (p.perform edges command).2.1.core.state = .initialized :=
  (perform_frozen running edges noReset).state_eq.trans running

/-- A running process that is given commands, but no reset, keeps its ports as they are declared and
bound, and its untunable keys with their texts. -/
theorem follow_frozen (p : Process σ) {commands : List (Edges × Command)}
    (running : p.core.state = .initialized) (noReset : NoReset commands) :
    let after := (p.follow commands).core
    (∀ direction, after.portNames direction = p.core.portNames direction) ∧
      (∀ key, (after.port? key).map (fun port => (port.declared, port.info, port.edges)) =
        (p.core.port? key).map fun port => (port.declared, port.info, port.edges)) ∧
      ∀ key info, p.core.registry.info key = .ok info → info.tunable = false →
        after.registry.info key = .ok info ∧ after.registry.raw key = p.core.registry.raw key := by
  intro after
  obtain ⟨-, frozen, kept⟩ := p.course_frozen running noReset
  refine ⟨frozen.portNames_eq, frozen.map_eq fun _ _ => rfl, fun key info hkey fixed => ?_⟩
  exact ⟨kept.info hkey, kept.raw hkey fixed⟩

/-- A plugin that meddles with its ports at every step. -/
def meddler : Plugin Unit :=
  let attempt (r : Request) : Reaction Unit Unit :=
    tryCatch (discard (Reaction.request r)) fun _ => pure ()
  let info : PortInfo := ⟨.flowDependent "t", .empty, "", .one⟩
  { Plugin.idle Unit with
    declare := do
      Reaction.request (.declare (.output "out") info)
      Reaction.request (.declareKey "depth" ⟨"1", "", false⟩)
    step := do
      attempt (.declare (.input "late") info)
      attempt (.remove (.output "out"))
      attempt (.resolve (.output "out") (.concrete "image")) }

/-- The meddler, running. -/
def meddling : Process Unit :=
  (create ∅ meddler () .empty).2.1.follow
    [(.empty, .configure), (.empty, .connect (.output "out") (some ⟨0⟩)), (.empty, .init)]

/-- What is tried with it. -/
def tampering : List (Edges × Command) :=
  [(.empty, .step), (.empty, .reconfigure (Config.empty.set "depth" "2")),
    (.empty, .connect (.output "out") (some ⟨1⟩)),
    (.empty, .setType (.output "out") (.concrete "image"))]

theorem follow_frozen_meddling :
    meddling.core.state = .initialized ∧ NoReset tampering ∧
      (meddling.follow tampering).core.portNames .input = [] ∧
      ((meddling.follow tampering).core.port? (.output "out")).map
        (fun port => (port.declared, port.info, port.edges)) =
          some (.flowDependent "t", ⟨.flowDependent "t", .empty, "", .one⟩, [⟨0⟩]) ∧
      (meddling.follow tampering).core.registry.raw "depth" = .ok "1" := by
  have running : meddling.core.state = .initialized := by
    decide +kernel
  have noReset : NoReset tampering := by
    simp [NoReset, tampering]
  have hinputs : meddling.core.portNames .input = [] := by
    decide +kernel
  have hout : (meddling.core.port? (.output "out")).map
      (fun port => (port.declared, port.info, port.edges)) =
        some (.flowDependent "t", ⟨.flowDependent "t", .empty, "", .one⟩, [⟨0⟩]) := by
    decide +kernel
  have hdepth : meddling.core.registry.info "depth" = .ok ⟨"1", "", false⟩ := by
    rw [Registry.info_eq_ok]
    decide +kernel
  have htext : meddling.core.registry.raw "depth" = .ok "1" := by
    rfl
  obtain ⟨hnames, hports, hkeys⟩ := meddling.follow_frozen running noReset
  obtain ⟨-, hraw⟩ := hkeys "depth" _ hdepth rfl
  exact ⟨running, noReset, (hnames .input).trans hinputs, (hports _).trans hout, hraw.trans htext⟩

end Process

end Dataflow
