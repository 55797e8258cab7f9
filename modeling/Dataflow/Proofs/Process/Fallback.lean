import Dataflow.Proofs.Process.Regular

/-!
# The keys of static inputs

The key of a static input is declared with the input, unless there is such a key already, and keys
outlive everything. So an unbound static input always finds a text to read, and that its key is
unknown is never why an input gives nothing.
-/

namespace Dataflow

/-! ## What is sought on an input -/

/-- A type of values that are sought on inputs: how a datum carries one, how a text is read as one,
and how a datum without one is refused. -/
structure Sought (α : Type) where
  ofDatum? : Datum → Option α
  read : String → Except String α
  refusal : (process port : String) → Status → ProcessError
  refusal_ne {process port : String} {status : Status} {e : ConfigError} :
    refusal process port status ≠ .config e

namespace Sought

variable {α : Type}

/-- The scalars of a kind. -/
def scalar (kind : Scalar.Kind) : Sought Scalar where
  ofDatum? datum := (datum.get? (.scalar kind)).bind World.scalarOf?
  read text := (kind.read text).mapError ReadFault.message
  refusal process port status := .badCast process port status (.scalar kind)
  refusal_ne := nofun

/-- The value of the setting `key` that is stored as the text `raw`. -/
def ofText (sought : Sought α) (key raw : String) : Except ProcessError α :=
  (sought.read raw).mapError fun reason => .config (.badValue key raw reason)

/-- The value of the head of an edge. Of an empty edge there is none as yet. -/
def ofHead (sought : Sought α) (process port : String) :
    Option Stamped → Except ProcessError (Option α)
  | none => .ok none
  | some token =>
    match sought.ofDatum? token.datum with
    | some value => .ok (some value)
    | none => .error (sought.refusal process port token.status)

theorem ofText_ne (sought : Sought α) {key raw other : String} :
    some <$> sought.ofText key raw ≠ .error (.config (.unknownKey other)) := by
  rw [ofText]
  cases sought.read raw <;> exact nofun

theorem ofHead_ne (sought : Sought α) {process port : String} {head? : Option Stamped}
    {e : ConfigError} : sought.ofHead process port head? ≠ .error (.config e) := by
  cases head? with
  | none => exact nofun
  | some token =>
    rw [ofHead]
    cases sought.ofDatum? token.datum with
    | some value => exact nofun
    | none => exact fun h => sought.refusal_ne (Except.error.inj h)

end Sought

namespace World

variable {α : Type}

/-- Take a value from an input, whatever its type. An unbound static input reads the text of its key
instead. -/
def fetch (w : World) (port : String) (sought : Sought α) : Attempt World (Option α) :=
  match w.core.port? (.input port) with
  | none => (.error (w.core.noPort (.input port)), w)
  | some p =>
    if p.edges = [] ∧ p.info.flags.static = true then
      match w.core.registry.raw (Core.staticKey port) with
      | .error e => (.error (.config e), w)
      | .ok raw => (some <$> sought.ofText (Core.staticKey port) raw, w)
    else
      match w.grab port with
      | (.error e, w) => (.error e, w)
      | (.ok head?, w) => (sought.ofHead w.core.name port head?, w)

theorem scalar_of_value (c : Core) (kind : Scalar.Kind) (key : String) :
    some <$> c.value kind.read key =
      match c.registry.raw key with
      | .error e => .error (.config e)
      | .ok raw => some <$> (Sought.scalar kind).ofText key raw := by
  rw [Core.value, Registry.value]
  cases c.registry.raw key with
  | error e => rfl
  | ok raw =>
    dsimp only [readSetting, Sought.ofText, Sought.scalar]
    cases kind.read raw <;> rfl

theorem grabAs_scalar (w : World) (port : String) (kind : Scalar.Kind) :
    ((·.bind scalarOf?) <$> (w.grabAs port (.scalar kind)).1, (w.grabAs port (.scalar kind)).2) =
      match w.grab port with
      | (.error e, w) => (.error e, w)
      | (.ok head?, w) => ((Sought.scalar kind).ofHead w.core.name port head?, w) := by
  rw [grabAs]
  obtain ⟨result, after⟩ := w.grab port
  cases result with
  | error e => rfl
  | ok head? =>
    cases head? with
    | none => rfl
    | some token =>
      dsimp only [Sought.ofHead, Sought.scalar]
      cases hpayload : token.datum.get? (.scalar kind) with
      | none => rfl
      | some payload =>
        -- A payload of the kind of a scalar is a scalar.
        have hkind := Datum.kind_of_get? hpayload
        cases payload with
        | scalar value => rfl
        | bytes value => cases hkind

/-- Scalars are taken as everything is. -/
theorem grabInput_eq_fetch (w : World) (port : String) (kind : Scalar.Kind) :
    w.grabInput port kind = w.fetch port (.scalar kind) := by
  rw [grabInput, fetch]
  cases w.core.port? (.input port) with
  | none => rfl
  | some p =>
    dsimp only
    split
    · -- The text is read in the same way, whatever its fault is called.
      rw [scalar_of_value]
      split <;> rfl
    · exact w.grabAs_scalar port kind

section Cases

variable (w : World) {name : String} {port : Port} (sought : Sought α)

theorem fetch_of_absent (absent : w.core.port? (.input name) = none) :
    w.fetch name sought = (.error (.noSuchPort w.core.name (.input name)), w) := by
  rw [fetch, absent]
  rfl

theorem fetch_of_loose (hport : w.core.port? (.input name) = some port) (unbound : port.edges = [])
    (flags : port.info.flags.static = false) :
    w.fetch name sought = (.error (.missingConnection w.core.name (.input name)), w) := by
  rw [fetch, grab, hport]
  simp only [unbound, flags, Bool.false_eq_true, and_false, if_false]

theorem fetch_of_static (hport : w.core.port? (.input name) = some port)
    (unbound : port.edges = []) (flags : port.info.flags.static = true) {raw : String}
    (hraw : w.core.registry.raw (Core.staticKey name) = .ok raw) :
    w.fetch name sought = (some <$> sought.ofText (Core.staticKey name) raw, w) := by
  rw [fetch, hport]
  simp only [unbound, flags, and_self, if_true, hraw]

theorem fetch_of_bound (hport : w.core.port? (.input name) = some port) {edge : EdgeId}
    (bound : port.edges.head? = some edge) :
    w.fetch name sought =
      (sought.ofHead w.core.name name (w.edges.peek? edge 0),
        { w with edges := (w.edges.pop edge).2 }) := by
  obtain ⟨rest, hedges⟩ := List.head?_eq_some_iff.mp bound
  -- What is popped is what can be seen at the head.
  have hhead : (w.edges.pop edge).1 = w.edges.peek? edge 0 := by
    rw [Edges.pop, Edges.peek?]
    cases w.edges.queue edge <;> rfl
  rw [fetch, grab, hport, ← hhead]
  simp only [hedges, reduceCtorEq, false_and, if_false]

end Cases

end World

/-! ## The keys -/

theorem Registry.raw_of_isDeclared {r : Registry} {key : String} (h : r.isDeclared key = true) :
    ∃ raw, r.raw key = .ok raw := by
  obtain ⟨info, hinfo⟩ := isDeclared_iff.mp h
  rw [raw, info_eq_ok.mp hinfo]
  exact ⟨_, rfl⟩

namespace Core

/-- Whether every static input has its key. -/
def Backed (c : Core) : Prop :=
  ∀ name port, c.port? (.input name) = some port → port.info.flags.static = true →
    c.registry.isDeclared (staticKey name) = true

variable {resets : Prop} {c after : Core}

/-- A declaration leaves the key of a static input declared, be it new or not. -/
theorem isDeclared_of_declareStatic {r after : Registry} {name : String} {flags : Flags}
    (h : declareStatic r (.input name) flags = .ok after) (static : flags.static = true) :
    after.isDeclared (staticKey name) = true := by
  rw [declareStatic] at h
  split at h
  · have hinfo := (Registry.declare_eq_ok.mp h).2
    rw [← hinfo, Registry.isDeclared]
    exact Std.ExtTreeMap.contains_insert_self
  · rename_i hnot
    -- Nothing else can have stood in the way of the declaration.
    cases hdeclared : r.isDeclared (staticKey name) with
    | true => exact Except.ok.inj h ▸ hdeclared
    | false => exact absurd ⟨rfl, static, hdeclared⟩ hnot

/-- What only takes ports away, and no keys, leaves every static input with its key. -/
theorem Backed.of_flags (hc : c.Backed) (kept : c.registry.Kept after.registry)
    (flags : ∀ {key port}, after.port? key = some port →
      ∃ before, c.port? key = some before ∧ before.info.flags = port.info.flags) :
    after.Backed := by
  intro name port hport static
  obtain ⟨before, hbefore, hflags⟩ := flags hport
  exact kept.isDeclared (hc name before hbefore (hflags ▸ static))

theorem Backed.of_view (hc : c.Backed) (kept : c.registry.Kept after.registry)
    (view : ∀ key, (after.port? key).map (·.info.flags) = (c.port? key).map (·.info.flags)) :
    after.Backed := by
  refine hc.of_flags kept fun {key port} hport => ?_
  have hview := view key
  rw [hport, Option.map_some, eq_comm] at hview
  exact Option.map_eq_some_iff.mp hview

/-- The only inputs that a request adds are declared with their keys. -/
theorem Touched.backed (h : c.Touched after) (hc : c.Backed) : after.Backed := by
  have kept := h.kept
  cases h with
  | same | keyed | leveled | completed => exact hc.of_view kept fun _ => rfl
  | @declared key info registry _ _ _ static =>
    intro name port hport flags
    rw [port?_withPort] at hport
    by_cases hkey : .input name = key
    · -- The new port has the flags that its declaration gives it.
      rw [if_pos hkey] at hport
      rw [← Option.some.inj hport] at flags
      exact isDeclared_of_declareStatic (hkey ▸ static) flags
    · rw [if_neg hkey] at hport
      exact kept.isDeclared (hc name port hport flags)
  | removed => exact hc.of_flags kept fun hport => ⟨_, (port_of_withoutPort hport).2, rfl⟩
  | retimed =>
    refine hc.of_view kept fun key => ?_
    refine c.view_modifyPort (fun _ => ?_) _ key
    rfl
  | settled => exact hc.of_view kept fun key => c.view_settle (fun _ _ => rfl) _ _ key
  | sent => exact hc.of_view kept fun key => c.view_advance (fun _ _ => rfl) _ key

theorem Moved.backed (h : c.Moved resets after) (hc : c.Backed) : after.Backed := by
  have kept := h.kept
  cases h with
  | touched h => exact h.backed hc
  | configured | initialized | retuned => exact hc.of_view kept fun _ => rfl
  | connected =>
    refine hc.of_view kept fun key => ?_
    refine c.view_modifyPort (fun _ => ?_) _ key
    rfl
  | faulted =>
    refine hc.of_view kept fun key => ?_
    change ((c.advance fun _ => true).port? key).map _ = _
    exact c.view_advance (fun _ _ => rfl) _ key
  | rewound =>
    refine hc.of_view kept fun key => ?_
    rw [port?_rewound, Option.map_map]
    rfl

/-- A new core has no inputs. -/
theorem backed_ofConfig (config : Config) : (ofConfig config).Backed := by
  intro name port hport
  exact nomatch (ofConfig_port hport).1

end Core

/-- Where every static input has its key, no input fails for want of one. -/
theorem World.fetch_known {α : Type} (w : World) (backed : w.core.Backed) (name : String)
    (sought : Sought α) (key : String) :
    (w.fetch name sought).1 ≠ .error (.config (.unknownKey key)) := by
  cases hport : w.core.port? (.input name) with
  | none =>
    rw [w.fetch_of_absent sought hport]
    exact nofun
  | some port =>
    cases hedges : port.edges with
    | cons edge rest =>
      have bound : port.edges.head? = some edge := hedges ▸ rfl
      rw [w.fetch_of_bound sought hport bound]
      exact sought.ofHead_ne
    | nil =>
      cases flags : port.info.flags.static with
      | false =>
        rw [w.fetch_of_loose sought hport hedges flags]
        exact nofun
      | true =>
        obtain ⟨raw, hraw⟩ := Registry.raw_of_isDeclared (backed name port hport flags)
        rw [w.fetch_of_static sought hport hedges flags hraw]
        exact sought.ofText_ne

namespace Process

variable {σ : Type} {config : Config} {plugin : Plugin σ} {memory : σ} {edges : Edges}
  {commands : List (Edges × Command)}

theorem backed_of_life {w : World} (hw : w ∈ life config plugin memory edges commands) :
    w.core.Backed :=
  life_keeps (Core.backed_ofConfig config) (fun _ _ moved => moved.backed) hw

/-- In every world of a life each static input has its key. So whatever is sought on an input, and
whatever is on the edges, it is not the key that is unknown: an unbound static input reads the text
of its key and takes nothing, and another unbound input is refused, as one that is not declared is.
A bound input, static or not, reads the head of its edge and takes it, and the configuration does
not matter to it. -/
theorem life_fallback {w : World} (hw : w ∈ life config plugin memory edges commands) :
    (∀ name port, w.core.port? (.input name) = some port → port.info.flags.static = true →
        w.core.registry.isDeclared (Core.staticKey name) = true) ∧
      ∀ there : World, there.core = w.core → ∀ name,
        (∀ kind, there.grabInput name kind = there.fetch name (.scalar kind)) ∧
        ∀ (α : Type) (sought : Sought α),
          (∀ key, (there.fetch name sought).1 ≠ .error (.config (.unknownKey key))) ∧
          (there.core.port? (.input name) = none →
            there.fetch name sought =
              (.error (.noSuchPort there.core.name (.input name)), there)) ∧
          ∀ port, there.core.port? (.input name) = some port →
            (port.edges = [] → port.info.flags.static = false →
              there.fetch name sought =
                (.error (.missingConnection there.core.name (.input name)), there)) ∧
            (port.edges = [] → port.info.flags.static = true →
              ∃ raw, there.core.registry.raw (Core.staticKey name) = .ok raw ∧
                there.fetch name sought =
                  (some <$> sought.ofText (Core.staticKey name) raw, there)) ∧
            ∀ edge, port.edges.head? = some edge → ∀ registry : Registry,
              let other : World := { there with core := { there.core with registry } }
              other.fetch name sought =
                (sought.ofHead there.core.name name (there.edges.peek? edge 0),
                  { other with edges := (there.edges.pop edge).2 }) := by
  have hbacked := backed_of_life hw
  -- Others may have used the edges since, but the core is that of the world.
  refine ⟨hbacked, fun there hcore name => ⟨there.grabInput_eq_fetch name, fun α sought => ?_⟩⟩
  have backed : there.core.Backed := hcore ▸ hbacked
  refine ⟨there.fetch_known backed name sought, there.fetch_of_absent sought, fun port hport => ?_⟩
  refine ⟨there.fetch_of_loose sought hport, fun unbound flags => ?_, fun edge bound registry => ?_⟩
  · obtain ⟨raw, hraw⟩ := Registry.raw_of_isDeclared (backed name port hport flags)
    exact ⟨raw, hraw, there.fetch_of_static sought hport unbound flags hraw⟩
  · -- Which registry there is does not matter to the ports.
    intro other
    exact other.fetch_of_bound sought hport bound

/-- A plugin with a static input whose key it has declared before, and that declares the input anew
at every reset. -/
def forearmed : Plugin Unit :=
  let static : PortInfo := ⟨.any, .ofList [.static], "", .one⟩
  { Plugin.idle Unit with
    declare := do
      Reaction.request (.declareKey "static/gain" ⟨"7", "The gain.", true⟩)
      Reaction.request (.declare (.input "gain") static)
    reset := do
      Reaction.request (.remove (.input "gain"))
      Reaction.request (.declare (.input "gain") static) }

/-- A life in which it does so once. -/
def rearmed : List World :=
  life .empty forearmed () .empty [(.empty, .configure), (.empty, .reset)]

/-- After the reset the input still reads what the plugin has declared. -/
theorem life_fallback_forearmed :
    ∃ w ∈ rearmed, w.grabInput "gain" .i32 = (.ok (some (.i32 7)), w) := by
  have hend : rearmed.getLast?.map (fun w =>
      (w.core.port? (.input "gain"), w.core.registry.raw (Core.staticKey "gain"))) =
        some (some ⟨.any, ⟨.any, .ofList [.static], "", .one⟩, [], .first⟩, .ok "7") := by
    decide +kernel
  obtain ⟨w, hlast, hw⟩ := Option.map_eq_some_iff.mp hend
  obtain ⟨hport, hraw⟩ := Prod.mk.inj hw
  have hmem : w ∈ rearmed := List.mem_of_getLast? hlast
  obtain ⟨-, hfetch⟩ := life_fallback hmem
  obtain ⟨hscalar, hsought⟩ := hfetch w rfl "gain"
  obtain ⟨-, -, hfound⟩ := hsought Scalar (.scalar .i32)
  obtain ⟨-, hstatic, -⟩ := hfound _ hport
  -- Its one text is the default of the key that was there before the input.
  obtain ⟨raw, hsame, htext⟩ := hstatic rfl rfl
  obtain rfl : "7" = raw := Except.ok.inj (hraw.symm.trans hsame)
  have hread : some <$> (Sought.scalar .i32).ofText (Core.staticKey "gain") "7" =
      .ok (some (.i32 7)) := by
    decide +kernel
  exact ⟨w, hmem, (hscalar .i32).trans (htext.trans (congrArg (·, w) hread))⟩

end Process

end Dataflow
