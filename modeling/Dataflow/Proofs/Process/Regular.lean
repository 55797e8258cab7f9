import Dataflow.Proofs.Process.Heartbeat
import Dataflow.Proofs.Types.Agreement
import Dataflow.Proofs.Types.Proposal

/-!
# What holds of every core

Some things a core never loses, whatever its plugin asks for and whatever its commands come to: its
heartbeat, the keys of its name and of its type, and the order of its ports. `Core.Regular` says what
these are. It holds of a new core and is kept by every move.
-/

namespace Dataflow

/-- What holds of a port of a direction while the core is in a state. -/
structure Port.Regular (port : Port) (direction : Direction) (state : State) : Prop where
  fitting : flagClash? direction port.info.flags = none
  single : direction = .input → port.edges.length ≤ 1
  loose : state = .created → port.edges = []

/-- What holds of a core. -/
structure Core.Regular (c : Core) : Prop where
  heartbeat : ∃ port, c.port? (.output Core.heartbeat) = some port ∧ port.declared = .none
  ports : ∀ {key port}, c.port? key = some port → port.Regular key.direction c.state
  named : c.registry.info Config.nameKey = .ok nameInfo ∧
    c.registry.raw Config.nameKey = .ok c.name
  typed : c.registry.info Config.typeKey = .ok typeInfo ∧
    c.registry.raw Config.typeKey = .ok c.typeName

namespace Port.Regular

variable {port before : Port} {direction : Direction} {state : State}

theorem of_bare (fitting : flagClash? direction port.info.flags = none) (bare : port.edges = []) :
    port.Regular direction state where
  fitting := fitting
  single _ := by
    rw [bare]
    exact Nat.zero_le 1
  loose _ := bare

theorem of_shape (h : before.Regular direction state) (shape_eq : port.shape = before.shape) :
    port.Regular direction state := by
  obtain ⟨hflags, hedges⟩ := Prod.mk.inj (Prod.mk.inj shape_eq).2
  exact ⟨hflags ▸ h.fitting, hedges ▸ h.single, hedges ▸ h.loose⟩

/-- Only a core that is created asks for more than the others do. -/
theorem later (h : port.Regular direction state) {after : State} (late : after ≠ .created) :
    port.Regular direction after :=
  ⟨h.fitting, h.single, fun created => absurd created late⟩

theorem of_stems {before? : Option Port} (stems : Port.Stems direction before? port)
    (h : ∀ before, before? = some before → before.Regular direction state) :
    port.Regular direction state := by
  cases stems with
  | fresh bare fitting => exact of_bare fitting bare
  | kept shape_eq => exact (h _ rfl).of_shape shape_eq

end Port.Regular

namespace Core

variable {resets : Prop} {c after : Core}

/-! ## The beginning -/

/-- The core before its heartbeat is declared. -/
def titled (config : Config) : Core :=
  (((bare config).declareKey Config.nameKey nameInfo).2.declareKey Config.typeKey typeInfo).2

theorem ofConfig_eq (config : Config) :
    ofConfig config =
      (titled config).withPort (.output heartbeat) heartbeatInfo (titled config).registry := by
  have early : (titled config).state ≠ .initialized := by
    show State.created ≠ .initialized
    decide
  have new : (titled config).port? (.output heartbeat) = none := rfl
  have fitting : flagClash? .output heartbeatInfo.flags = none := by decide
  have static : declareStatic (titled config).registry (.output heartbeat) heartbeatInfo.flags =
      .ok (titled config).registry :=
    if_neg fun h => nomatch h.1
  exact congrArg Prod.snd (declare_eq early new fitting static)

theorem ofConfig_port {config : Config} {key : PortKey} {port : Port}
    (h : (ofConfig config).port? key = some port) :
    key = .output heartbeat ∧ port.shape = (.none, .empty, []) := by
  rw [ofConfig_eq, port?_withPort] at h
  by_cases hkey : key = .output heartbeat
  · rw [if_pos hkey] at h
    rw [← Option.some.inj h]
    exact ⟨hkey, rfl⟩
  · rw [if_neg hkey, titled, declareKey_port, declareKey_port, port?_bare] at h
    exact nomatch h

theorem regular_ofConfig (config : Config) : (ofConfig config).Regular where
  heartbeat := by
    obtain ⟨port, hport, -⟩ := ofConfig_heartbeat config
    exact ⟨port, hport, congrArg Prod.fst (ofConfig_port hport).2⟩
  ports {key port} hport := by
    obtain ⟨rfl, hshape⟩ := ofConfig_port hport
    obtain ⟨hflags, hedges⟩ := Prod.mk.inj (Prod.mk.inj hshape).2
    refine .of_bare ?_ hedges
    rw [hflags]
    decide
  named := ⟨rfl, rfl⟩
  typed := ⟨rfl, rfl⟩

/-! ## The moves -/

theorem Touched.names_eq (h : c.Touched after) :
    after.name = c.name ∧ after.typeName = c.typeName := by
  cases h with
  | @settled key type _ _ _ _ _ =>
    have hname := congrArg Core.name (c.settle_rest key type)
    have htype := congrArg Core.typeName (c.settle_rest key type)
    exact ⟨hname, htype⟩
  | same | declared | removed | retimed | keyed | leveled | completed | sent => exact ⟨rfl, rfl⟩

theorem rewound_names (c : Core) : c.rewound.name = c.name ∧ c.rewound.typeName = c.typeName := by
  rw [rewound]
  split <;> exact ⟨rfl, rfl⟩

/-- A process is named once and for all. -/
theorem Moved.names_eq (h : c.Moved resets after) :
    after.name = c.name ∧ after.typeName = c.typeName := by
  cases h with
  | touched h => exact h.names_eq
  | rewound => exact c.rewound_names
  | configured | initialized | connected | retuned | faulted => exact ⟨rfl, rfl⟩

/-- The heartbeat is never removed, and so never declared anew. -/
theorem Touched.heartbeat (h : c.Touched after)
    (hc : ∃ port, c.port? (.output heartbeat) = some port ∧ port.declared = .none) :
    ∃ port, after.port? (.output Core.heartbeat) = some port ∧ port.declared = .none := by
  obtain ⟨before, hbefore, hdeclared⟩ := hc
  have hstays := h.stays (.inr rfl) (hbefore ▸ rfl)
  obtain ⟨port, hport⟩ := Option.isSome_iff_exists.mp hstays
  have hstems := h.stems hport
  rw [hbefore] at hstems
  cases hstems with
  | kept shape_eq => exact ⟨port, hport, (congrArg Prod.fst shape_eq).trans hdeclared⟩

theorem Moved.heartbeat (h : c.Moved resets after)
    (hc : ∃ port, c.port? (.output heartbeat) = some port ∧ port.declared = .none) :
    ∃ port, after.port? (.output Core.heartbeat) = some port ∧ port.declared = .none := by
  have of_view (hview : (after.port? (.output Core.heartbeat)).map Port.declared =
      (c.port? (.output Core.heartbeat)).map Port.declared) :
      ∃ port, after.port? (.output Core.heartbeat) = some port ∧ port.declared = .none := by
    obtain ⟨before, hbefore, hdeclared⟩ := hc
    rw [hbefore, Option.map_some, hdeclared] at hview
    exact Option.map_eq_some_iff.mp hview
  cases h with
  | touched h => exact h.heartbeat hc
  | configured | initialized | retuned => exact hc
  | connected =>
    apply of_view
    refine c.view_modifyPort (fun _ => ?_) _ _
    rfl
  | faulted =>
    apply of_view
    change ((c.advance fun _ => true).port? _).map Port.declared = _
    exact c.view_advance (fun _ _ => rfl) _ _
  | rewound =>
    apply of_view
    rw [port?_rewound, Option.map_map]
    rfl

theorem Moved.ports (h : c.Moved resets after)
    (hc : ∀ {key port}, c.port? key = some port → port.Regular key.direction c.state) {key : PortKey}
    {port : Port} (hport : after.port? key = some port) :
    port.Regular key.direction after.state := by
  cases h with
  | touched h =>
    rw [h.state_eq]
    exact .of_stems (h.stems hport) fun before => hc
  | configured | initialized => exact (hc hport).later nofun
  | retuned => exact hc hport
  | @connected bound before edge configured declared free =>
    rw [port?_modifyPort] at hport
    by_cases hkey : key = bound
    · -- An input is bound only while it is free.
      rw [if_pos hkey, hkey, declared] at hport
      rw [← Option.some.inj hport, hkey]
      refine ⟨(hc declared).fitting, fun input => ?_, fun created => ?_⟩
      · dsimp only
        rw [free input]
        exact Nat.le_refl 1
      · exact nomatch configured.symm.trans created
    · rw [if_neg hkey] at hport
      exact hc hport
  | faulted =>
    have hstems : Port.Stems key.direction (c.port? key) port := by
      refine stems_of_view ?_ hport
      change ((c.advance fun _ => true).port? key).map Port.shape = _
      exact c.view_advance (fun _ _ => rfl) _ key
    exact .of_stems hstems fun before => hc
  | rewound =>
    rw [port?_rewound] at hport
    obtain ⟨before, hbefore, rfl⟩ := Option.map_eq_some_iff.mp hport
    exact .of_bare (hc hbefore).fitting rfl

/-- No move breaks any of it. -/
theorem Moved.regular (h : c.Moved resets after) (hc : c.Regular) : after.Regular where
  heartbeat := h.heartbeat hc.heartbeat
  ports := h.ports hc.ports
  named := by
    obtain ⟨hinfo, htext⟩ := hc.named
    rw [h.names_eq.1]
    exact ⟨h.kept.info hinfo, (h.kept.raw hinfo rfl).trans htext⟩
  typed := by
    obtain ⟨hinfo, htext⟩ := hc.typed
    rw [h.names_eq.2]
    exact ⟨h.kept.info hinfo, (h.kept.raw hinfo rfl).trans htext⟩

/-! ## What the flags say -/

theorem flags_of_fitting {direction : Direction} {flags : Flags}
    (h : flagClash? direction flags = none) :
    ¬ (flags.contains .required ∧ flags.contains .static) ∧
      match direction with
      | .output =>
        (∀ flag ∈ [Flag.static, .mutable, .nodep], flags.contains flag = false) ∧
          ¬ (flags.contains .const ∧ flags.contains .shared)
      | .input => ∀ flag ∈ [Flag.const, .shared], flags.contains flag = false := by
  unfold flagClash? at h
  cases direction <;> simp [Flags.contains] at h ⊢ <;> grind

end Core

namespace Process

variable {σ : Type} {config : Config} {plugin : Plugin σ} {memory : σ} {edges : Edges}
  {commands : List (Edges × Command)}

theorem regular_of_life {w : World} (hw : w ∈ life config plugin memory edges commands) :
    w.core.Regular :=
  life_keeps (Core.regular_ofConfig config) (fun _ _ moved => moved.regular) hw

/-- In every world of a life the heartbeat is there and carries no data, no input has two edges,
nothing is bound before the configuration, the flags of every port go together, and the name and the
type of the process are the texts of their keys. The heartbeat shows that it carries no data as long as
no slot is given out twice. -/
theorem life_regular {w : World} (hw : w ∈ life config plugin memory edges commands) :
    (∃ port, w.core.port? (.output Core.heartbeat) = some port ∧ port.declared = .none ∧
        (w.core.groups.forest.size < UInt32.size → port.info.type = .none)) ∧
      (∀ name port, w.core.port? (.input name) = some port → port.edges.length ≤ 1) ∧
      (w.core.state = .created → ∀ key port, w.core.port? key = some port → port.edges = []) ∧
      (∀ key port, w.core.port? key = some port →
        ¬ (port.info.flags.contains .required ∧ port.info.flags.contains .static)) ∧
      (∀ name port, w.core.port? (.output name) = some port →
        (∀ flag ∈ [Flag.static, .mutable, .nodep], port.info.flags.contains flag = false) ∧
          ¬ (port.info.flags.contains .const ∧ port.info.flags.contains .shared)) ∧
      (∀ name port, w.core.port? (.input name) = some port →
        ∀ flag ∈ [Flag.const, .shared], port.info.flags.contains flag = false) ∧
      (w.core.registry.isDeclared Config.nameKey ∧
        w.core.registry.raw Config.nameKey = .ok w.core.name) ∧
      w.core.registry.isDeclared Config.typeKey ∧
        w.core.registry.raw Config.typeKey = .ok w.core.typeName := by
  have hregular := regular_of_life hw
  have hflags {key : PortKey} {port : Port} (hport : w.core.port? key = some port) :=
    Core.flags_of_fitting (hregular.ports hport).fitting
  refine ⟨?_, fun name port hport => (hregular.ports hport).single rfl,
    fun created key port hport => (hregular.ports hport).loose created,
    fun key port hport => (hflags hport).1, fun name port hport => (hflags hport).2,
    fun name port hport => (hflags hport).2, ⟨?_, hregular.named.2⟩, ?_, hregular.typed.2⟩
  · obtain ⟨port, hport, hdeclared⟩ := hregular.heartbeat
    refine ⟨port, hport, hdeclared, fun few => ?_⟩
    obtain ⟨i, hi⟩ := List.getElem?_of_mem hw
    obtain ⟨a, ha⟩ := agrees_of_life hi few
    rw [ha.type_eq hport, hdeclared]
    rfl
  · exact Registry.isDeclared_iff.mpr ⟨_, hregular.named.1⟩
  · exact Registry.isDeclared_iff.mpr ⟨_, hregular.typed.1⟩

/-- A plugin that declares its input anew at every reset, but with flags that do not go together. -/
def refitter : Plugin Unit :=
  let info (flags : List Flag) : PortInfo := ⟨.any, .ofList flags, "", .one⟩
  { Plugin.idle Unit with
    declare := Reaction.request (.declare (.input "in") (info [.required]))
    reset := do
      Reaction.request (.remove (.input "in"))
      Reaction.request (.declare (.input "in") (info [.required, .static])) }

/-- A life in which the input is bound twice, and once more after a reset. -/
def refitted : List World :=
  life (Config.forProcess "lens" "filter") refitter () .empty
    [(.empty, .configure), (.empty, .connect (.input "in") (some ⟨0⟩)),
      (.empty, .connect (.input "in") (some ⟨1⟩)), (.empty, .init), (.empty, .reset),
      (.empty, .connect (.input "in") (some ⟨1⟩))]

/-- The process keeps its name and its heartbeat, although the reset has failed half-way. -/
theorem life_regular_refitted :
    ∃ w ∈ refitted, w.core.groups.forest.size < UInt32.size ∧ w.core.state = .configured ∧
      w.core.port? (.input "in") = none ∧ w.core.name = "lens" ∧
      w.core.registry.raw Config.nameKey = .ok "lens" ∧
      ∃ port, w.core.port? (.output Core.heartbeat) = some port ∧ port.info.type = .none := by
  have hend : refitted.getLast?.map (fun w => (w.core.groups.forest.size, w.core.state,
      w.core.port? (.input "in"), w.core.name)) = some (2, .configured, none, "lens") := by
    decide +kernel
  obtain ⟨w, hlast, hw⟩ := Option.map_eq_some_iff.mp hend
  obtain ⟨hsize, hstate, hport, hname⟩ : _ ∧ _ ∧ _ ∧ _ := by
    simpa only [Prod.mk.injEq] using hw
  have hmem : w ∈ refitted := List.mem_of_getLast? hlast
  have few : w.core.groups.forest.size < UInt32.size := by
    rw [hsize]
    decide
  obtain ⟨⟨port, hheartbeat, -, htype⟩, -, -, -, -, -, ⟨-, htext⟩, -⟩ := life_regular hmem
  exact ⟨w, hmem, few, hstate, hport, hname, hname ▸ htext, port, hheartbeat, htype few⟩

/-- A life in which all slots are used up before a type is proposed for an output. -/
def overcrowded : List World :=
  life ∅ (crowding (UInt32.size - 1)) () .empty
    [(.empty, .setType (.output "out") (.concrete "image"))]

/-- Without a free slot the heartbeat may show a type, although it carries no data. -/
theorem heartbeat_shows_type :
    ∃ w ∈ overcrowded,
      (w.core.port? (.output Core.heartbeat)).map Port.types = some (.none, .concrete "image") := by
  have full : 1 + (UInt32.size - 1) = UInt32.size := by decide
  obtain ⟨after, hresolve, hafter⟩ := newCrowd_resolve full "image"
  have made := create_crowding (UInt32.size - 1)
  rw [← newCrowd_eq] at made
  refine ⟨_, behind_mem_life made .empty (.setType (.output "out") (.concrete "image")) [], ?_⟩
  rw [behind, perform, setType_eq (newCrowd_defers _), hresolve]
  exact hafter ▸ rfl

end Process

end Dataflow
