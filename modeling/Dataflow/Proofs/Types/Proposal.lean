import Dataflow.Proofs.Core.Proposal
import Dataflow.Proofs.Process.Freeze
import Dataflow.Proofs.Types.Agreement
import Dataflow.Proofs.Types.Reuse

/-!
# One proposal

What is replied to a proposed type, and what a proposal changes, can be read off the port that it is
made to: the declared type of the port, the one that it shows, and its tag. If the port is still
looking for its type, it finds it now, together with all ports that share its tag, and that is the
only case in which anything changes.
-/

namespace Dataflow

/-- The name of a named type. -/
def DataType.concrete? : DataType → Option String
  | concrete name => some name
  | any | none | dataDependent | flowDependent _ => Option.none

theorem DataType.concrete?_eq_some {type : DataType} {name : String} :
    type.concrete? = some name ↔ type = .concrete name := by
  cases type <;> simp [concrete?]

theorem DataType.isConcrete_of_dependent {declared : DataType} (h : declared.isDependent = true) :
    declared.isConcrete = false := by
  cases declared with
  | concrete name => exact nomatch h
  | any | none | dataDependent | flowDependent tag => rfl

def Port.showing (port : Port) (type : DataType) : Port :=
  { port with info := { port.info with type } }

/-- The tag of a class, if it has one. -/
def Classes.Label.tag? : Classes.Label → Option String
  | tagged tag => some tag
  | single _ => none

namespace Core

def tagOf? (c : Core) (key : PortKey) : Option String := (c.port? key).bind (·.declared.tag?)

/-- Whether two ports find their type together. -/
def Classmates (c : Core) (key other : PortKey) : Prop :=
  other = key ∨ (c.tagOf? key).isSome = true ∧ c.tagOf? other = c.tagOf? key

instance (c : Core) (key other : PortKey) : Decidable (c.Classmates key other) :=
  inferInstanceAs (Decidable (_ ∨ _))

/-- The reply to a proposal. -/
def reply (c : Core) (key : PortKey) (proposed : DataType) : Except ProcessError Bool :=
  if c.state = .initialized then .error (.typeSetLate c.name key.name)
  else match c.port? key with
    | none => .error (.noSuchPort c.name key)
    | some port =>
      if (port.declared.isConcrete ∨ port.declared = .none) ∧ proposed ≠ port.declared then
        .error (.staticTypeReset c.name key.name port.declared proposed)
      else .ok (decide (proposed = port.info.type ∨
        proposed.isConcrete ∧ (port.declared = .any ∨ port.info.type.isDependent)))

/-- The type that a proposal settles, if it settles one. -/
def settles? (c : Core) (key : PortKey) (proposed : DataType) : Option String :=
  if c.state = .initialized then none
  else match c.port? key with
    | none => none
    | some port => if port.info.type.isDependent then proposed.concrete? else none

/-- The core when a type is found for a port, if one is. -/
def finding (c : Core) (key : PortKey) : Option String → Core
  | none => c
  | some type => (c.settle key type).2

/-- Whether a port looks for a type, and its class is this one. -/
structure Seeks (c : Core) (a : Classes) (key : PortKey) (label : Classes.Label) : Prop where
  port : ∃ port, c.port? key = some port ∧ port.declared.isDependent = true
  label_eq : a.label? key = some label
  none_found : a.type? label = none

/-- Whether one core comes from another by a type that is found for a port and its class, and by
nothing else. -/
structure Settled (c : Core) (key : PortKey) (type : String) (after : Core) : Prop where
  rest : { after with ports := c.ports, groups := c.groups } = c
  port_eq (other : PortKey) : after.port? other =
    if c.Classmates key other then (c.port? other).map (·.showing (.concrete type))
    else c.port? other
  slots_eq : after.groups.slots = c.groups.slots
  tags_eq : after.groups.tags = c.groups.tags
  members_eq (other : PortKey) : (after.groups.members other).1 = (c.groups.members other).1
  pin_eq (other : PortKey) : (after.groups.pin other).1 =
    if (c.port? other).isSome = true ∧ c.Classmates key other then some type
    else (c.groups.pin other).1

theorem settles?_eq_some {c : Core} {key : PortKey} {proposed : DataType} {type : String} :
    c.settles? key proposed = some type ↔
      c.state ≠ .initialized ∧ proposed = .concrete type ∧
        ∃ port, c.port? key = some port ∧ port.info.type.isDependent = true := by
  rw [settles?, ← DataType.concrete?_eq_some]
  by_cases early : c.state = .initialized
  · simp [early]
  · rw [if_neg early]
    cases c.port? key with
    | none => simp
    | some port => by_cases dependent : port.info.type.isDependent = true <;> simp [early, dependent]

namespace Agrees

variable {c : Core} {a : Classes} {key other : PortKey} {port port' : Port} {label : Classes.Label}

theorem tag?_of_fits {declared : DataType} (h : declared.Fits label) : declared.tag? = label.tag? := by
  cases label with
  | tagged tag => exact h
  | single number => exact h

theorem tagOf?_eq (h : c.Agrees a) (hlabel : a.label? key = some label) :
    c.tagOf? key = label.tag? := by
  have hdeclared := h.declared_iff key
  rw [hlabel, Option.isSome_some] at hdeclared
  obtain ⟨port, hport⟩ := Option.isSome_iff_exists.mp hdeclared
  rw [tagOf?, hport, Option.bind_some]
  exact tag?_of_fits (h.fits hport hlabel)

theorem label_iff (h : c.Agrees a) (hlabel : a.label? key = some label) (other : PortKey) :
    a.label? other = some label ↔ c.Classmates key other := by
  have htag := h.tagOf?_eq hlabel
  constructor
  · intro hother
    cases label with
    | tagged tag => exact .inr ⟨htag ▸ rfl, (h.tagOf?_eq hother).trans htag.symm⟩
    | single number => exact .inl (h.represents.alone hother hlabel)
  · rintro (rfl | ⟨htagged, hsame⟩)
    · exact hlabel
    · cases label with
      | single number =>
        rw [htag] at htagged
        exact absurd htagged Bool.false_ne_true
      | tagged tag =>
        -- A tag leads to one class only.
        rw [htag] at hsame
        obtain ⟨port, hport, -⟩ := Option.bind_eq_some_iff.mp hsame
        obtain ⟨label', hlabel', -⟩ := h.label_of_port hport
        have hlabel := (h.tagOf?_eq hlabel').symm.trans hsame
        cases label' with
        | tagged tag' => rw [hlabel', Option.some.inj hlabel]
        | single number => exact nomatch hlabel

theorem shown_of_fixed (h : c.Agrees a) (hport : c.port? key = some port)
    (fixed : port.declared.isDependent = false) : port.info.type = port.declared := by
  rw [h.type_eq hport, DataType.shown, if_neg (fixed ▸ Bool.false_ne_true)]

/-- A port shows a sentinel as long as its class has not found a type. -/
theorem dependent_iff (h : c.Agrees a) (hport : c.port? key = some port)
    (hlabel : a.label? key = some label) :
    port.info.type.isDependent = true ↔
      port.declared.isDependent = true ∧ a.type? label = none := by
  have htype := h.type_eq hport
  rw [Classes.typeOf, hlabel, Option.bind_some] at htype
  rw [htype]
  cases hfound : a.type? label with
  | none => simp [DataType.shown_none]
  | some type =>
    by_cases dependent : port.declared.isDependent = true
    · rw [DataType.shown_some dependent]
      simp [DataType.isDependent]
    · simp [DataType.shown, dependent]

theorem open_iff (h : c.Agrees a) (hport : c.port? key = some port) :
    port.Open ↔ port.info.type.isDependent = true := by
  have hfixed : port.declared.isDependent = false → port.info.type = port.declared :=
    h.shown_of_fixed hport
  have htype := h.type_eq hport
  rw [Port.Open]
  by_cases dependent : port.declared.isDependent = true
  · -- The port shows its declared type or a named one, and the declared one is not named.
    rw [htype]
    cases a.typeOf key with
    | none =>
      rw [DataType.shown_none]
      exact and_iff_left_of_imp DataType.isConcrete_of_dependent
    | some type =>
      rw [DataType.shown_some dependent]
      simp [DataType.isConcrete, DataType.isDependent]
  · rw [hfixed ((Bool.not_eq_true _).mp dependent)]
    simp [dependent]

theorem seeks_of_dependent (h : c.Agrees a) (hport : c.port? key = some port)
    (dependent : port.info.type.isDependent = true) : ∃ label, c.Seeks a key label := by
  obtain ⟨label, hlabel, -⟩ := h.label_of_port hport
  obtain ⟨declared, hnone⟩ := (h.dependent_iff hport hlabel).mp dependent
  exact ⟨label, ⟨port, hport, declared⟩, hlabel, hnone⟩

theorem seeks_of_settles (h : c.Agrees a) {proposed : DataType} {type : String}
    (hsettles : c.settles? key proposed = some type) : ∃ label, c.Seeks a key label := by
  obtain ⟨-, -, port, hport, dependent⟩ := settles?_eq_some.mp hsettles
  exact h.seeks_of_dependent hport dependent

/-! ## A type is found -/

theorem settlement_eq (h : c.Agrees a) (seeks : c.Seeks a key label) (type : String) :
    (c.groups.settle key type).1 = .settled (c.groups.members key).1 := by
  rw [(h.represents.settle_spec key type).1, Classes.settlement, seeks.label_eq]
  dsimp only
  rw [seeks.none_found]

theorem settle_fst (h : c.Agrees a) (seeks : c.Seeks a key label) (type : String) :
    (c.settle key type).1 = true := by
  have hsettled := h.settlement_eq seeks type
  rw [settle]
  generalize c.groups.settle key type = settled at hsettled ⊢
  obtain ⟨settlement, groups⟩ := settled
  obtain rfl : settlement = _ := hsettled
  rfl

theorem settle_agrees (h : c.Agrees a) (seeks : c.Seeks a key label) (type : String) :
    (c.settle key type).2.Agrees (a.pin label type) := by
  obtain ⟨port, hport, declared⟩ := seeks.port
  exact h.settled type hport declared seeks.label_eq seeks.none_found

theorem groups_settle (h : c.Agrees a) (seeks : c.Seeks a key label) {root : Slot}
    (hroot : c.groups.StandsFor root label) (type : String) :
    (c.settle key type).2.groups = c.groups.pinned root type := by
  obtain ⟨slot, hslot, -, hstands⟩ := h.represents.slot_of_label seeks.label_eq
  obtain rfl := Groups.Represents.top_eq hstands hroot
  have hpin : c.groups.forest.pin (c.groups.forest.parent slot) = none :=
    (h.represents.type_eq hstands).trans seeks.none_found
  -- The groups are flat, so that no path is shortened and all that is written is the pin.
  rw [settle_groups, Groups.settle_eq h.represents.flat, hslot]
  dsimp only
  rw [hpin]

theorem members_of_pinned {g : Groups} (flat : g.forest.Flat) (root : Slot) (type : String)
    (key : PortKey) : ((g.pinned root type).members key).1 = (g.members key).1 := by
  rw [Groups.members_eq (Groups.pinned_flat flat root type), Groups.members_eq flat]
  dsimp only
  rw [Groups.slot?_pinned]
  cases g.slot? key with
  | none => rfl
  | some slot =>
    rw [Option.elim_some, Option.elim_some, Groups.below_pinned, Groups.pinned,
      Forest.parent_setPin]

theorem settled_eq (h : c.Agrees a) (seeks : c.Seeks a key label) (type : String) :
    c.Settled key type (c.settle key type).2 := by
  obtain ⟨slot, -, -, hstands⟩ := h.represents.slot_of_label seeks.label_eq
  have hgroups := h.groups_settle seeks hstands type
  have hafter := h.settle_agrees seeks type
  constructor
  · exact c.settle_rest key type
  · intro other
    rw [h.port?_settle type seeks.label_eq seeks.none_found]
    simp only [h.label_iff seeks.label_eq]
    rfl
  · rw [hgroups]
    rfl
  · rw [hgroups]
    rfl
  · intro other
    rw [hgroups]
    exact members_of_pinned h.represents.flat _ type other
  · intro other
    rw [hafter.represents.pin_spec, h.represents.pin_spec, Classes.typeOf_pin]
    -- A port that is not declared has no class, and nothing is pinned on it.
    have hdeclared := h.declared_iff other
    by_cases hother : a.label? other = some label
    · have hsome : (c.port? other).isSome = true := by
        rw [hdeclared, hother]
        rfl
      rw [if_pos hother, if_pos ⟨hsome, (h.label_iff seeks.label_eq other).mp hother⟩]
    · rw [if_neg hother, if_neg fun hc => hother ((h.label_iff seeks.label_eq other).mpr hc.2)]

/-! ## The reply -/

theorem static_iff (h : c.Agrees a) (hport : c.port? key = some port) (proposed : DataType) :
    (port.declared.isConcrete ∨ port.declared = .none) ∧ port.info.type ≠ proposed ↔
      (port.declared.isConcrete ∨ port.declared = .none) ∧ proposed ≠ port.declared := by
  apply and_congr_right
  intro static
  -- A fixed type is the one that is shown.
  rw [h.shown_of_fixed hport (DataType.isDependent_of_static static)]
  exact ne_comm

theorem reply_of_error (h : c.Agrees a) {proposed : DataType} {e : ProcessError}
    (check : c.checkProposal key proposed = .error e) : c.reply key proposed = .error e := by
  unfold checkProposal at check
  rw [reply]
  by_cases early : c.state = .initialized
  · rw [if_pos early] at check ⊢
    exact congrArg Except.error (Except.error.inj check)
  · rw [if_neg early] at check ⊢
    cases hport : c.port? key with
    | none =>
      rw [hport] at check
      exact congrArg Except.error (Except.error.inj check)
    | some port =>
      rw [hport] at check
      dsimp only at check ⊢
      split at check
      · rename_i hstatic
        have hshown := h.shown_of_fixed hport (DataType.isDependent_of_static hstatic.1)
        rw [if_pos ((h.static_iff hport proposed).mp hstatic), ← hshown]
        exact congrArg Except.error (Except.error.inj check)
      · exact nomatch check

theorem reply_of_ok (h : c.Agrees a) {proposed : DataType}
    (check : c.checkProposal key proposed = .ok ()) (hport : c.port? key = some port) :
    c.reply key proposed = .ok (decide (proposed = port.info.type ∨
      proposed.isConcrete ∧ (port.declared = .any ∨ port.info.type.isDependent))) := by
  obtain ⟨early, port', hport', free⟩ := port_of_check check
  obtain rfl : port = port' := Option.some.inj (hport.symm.trans hport')
  rw [reply, if_neg early, hport]
  exact if_neg (mt (h.static_iff hport proposed).mpr free)

theorem resolve_fst (h : c.Agrees a) (key : PortKey) (proposed : DataType) :
    (c.resolve key proposed).1 = c.reply key proposed := by
  have hresolved := c.resolved key proposed
  generalize c.resolve key proposed = attempt at hresolved ⊢
  cases hresolved with
  | refused check => exact (h.reply_of_error check).symm
  | @answered port check hport closed =>
    rw [h.reply_of_ok check hport]
    -- A named type is no answer to a port that looks for one: that would be settled.
    have hshown : proposed.isConcrete = true → port.info.type.isDependent = false := by
      intro hconcrete
      cases proposed with
      | concrete type => exact (Bool.not_eq_true _).mp (mt (h.open_iff hport).mpr (closed type rfl))
      | any | none | dataDependent | flowDependent _ => exact nomatch hconcrete
    have hanswer : (port.info.type = proposed ∨ proposed.isConcrete = true ∧ port.declared = .any) ↔
        (proposed = port.info.type ∨
          proposed.isConcrete ∧ (port.declared = .any ∨ port.info.type.isDependent)) := by
      rw [eq_comm]
      apply or_congr_right
      apply and_congr_right
      intro hconcrete
      simp [hshown hconcrete]
    exact congrArg Except.ok (decide_eq_decide.mpr hanswer)
  | @settled port type check hport concrete opened =>
    have dependent := (h.open_iff hport).mp opened
    obtain ⟨label, seeks⟩ := h.seeks_of_dependent hport dependent
    rw [h.reply_of_ok check hport, h.settle_fst seeks type, concrete]
    exact congrArg Except.ok (decide_eq_true (.inr ⟨rfl, .inr dependent⟩)).symm

theorem resolve_snd (h : c.Agrees a) (key : PortKey) (proposed : DataType) :
    (c.resolve key proposed).2 = c.finding key (c.settles? key proposed) := by
  have hresolved := c.resolved key proposed
  -- What is settled may be proposed, and the port looks for a type.
  have hsettles {type : String} (hsome : c.settles? key proposed = some type) :
      c.checkProposal key proposed = .ok () ∧ proposed = .concrete type ∧
        ∃ port, c.port? key = some port ∧ port.Open := by
    obtain ⟨early, hconcrete, port, hport, dependent⟩ := settles?_eq_some.mp hsome
    have opened := (h.open_iff hport).mpr dependent
    exact ⟨check_of_open early hport opened, hconcrete, port, hport, opened⟩
  generalize c.resolve key proposed = attempt at hresolved ⊢
  cases hresolved with
  | refused check =>
    cases hsome : c.settles? key proposed with
    | none => rfl
    | some type => exact nomatch check.symm.trans (hsettles hsome).1
  | answered check hport closed =>
    cases hsome : c.settles? key proposed with
    | none => rfl
    | some type =>
      obtain ⟨-, hconcrete, port', hport', opened⟩ := hsettles hsome
      obtain rfl := Option.some.inj (hport.symm.trans hport')
      exact absurd opened (closed type hconcrete)
  | settled check hport concrete opened =>
    have hsome : c.settles? key proposed = some _ :=
      settles?_eq_some.mpr ⟨(port_of_check check).1, concrete, _, hport, (h.open_iff hport).mp opened⟩
    rw [hsome]
    rfl

end Agrees

end Core

/-- Whether a plugin leaves the types of its ports to the core. -/
def Plugin.Defers {σ : Type} (plugin : Plugin σ) : Prop :=
  ∀ key proposed, plugin.proposeType key proposed = Reaction.request (.resolve key proposed)

namespace Process

variable {σ : Type}

theorem Reached.agrees {p : Process σ} (h : p.Reached)
    (few : p.core.groups.forest.size < UInt32.size) : ∃ a, p.core.Agrees a := by
  obtain ⟨config, memory, edges, commands, w, hw, hcore⟩ := h.in_life
  obtain ⟨i, hi⟩ := List.mem_iff_getElem?.mp hw
  rw [← hcore] at few ⊢
  exact agrees_of_life hi few

theorem setType_eq {p : Process σ} (defers : p.plugin.Defers) (edges : Edges) (key : PortKey)
    (proposed : DataType) :
    p.setType edges key proposed =
      ((p.core.resolve key proposed).1, { p with core := (p.core.resolve key proposed).2 },
        edges) := by
  rw [setType]
  cases hcheck : p.core.checkProposal key proposed with
  | error e =>
    rw [Core.resolve, hcheck]
  | ok _ =>
    rw [defers]
    rfl

/-- A proposal to a process that leaves its types to the core is answered as `reply` says. It settles
the type that `settles?` gives, for the port and its class and for no one else, and without such a type
it changes nothing. As far as there are slots for all declarations, the groups never find that the
class of such a port has a type already. -/
theorem setType_outcome {p : Process σ} (reached : p.Reached) (defers : p.plugin.Defers)
    (few : p.core.groups.forest.size < UInt32.size) (edges : Edges) (key : PortKey)
    (proposed : DataType) :
    ∃ after,
      p.setType edges key proposed =
        (p.core.reply key proposed, { p with core := after }, edges) ∧
      match p.core.settles? key proposed with
      | none => after = p.core
      | some type =>
        p.core.Settled key type after ∧
          ∃ members, (p.core.groups.settle key type).1 = .settled members ∧
            ∀ other, other ∈ members ↔
              (p.core.port? other).isSome = true ∧ p.core.Classmates key other := by
  obtain ⟨a, ha⟩ := reached.agrees few
  refine ⟨(p.core.resolve key proposed).2, ?_, ?_⟩
  · rw [setType_eq defers, ha.resolve_fst]
  · rw [ha.resolve_snd]
    cases hsettles : p.core.settles? key proposed with
    | none => rfl
    | some type =>
      obtain ⟨label, seeks⟩ := ha.seeks_of_settles hsettles
      have hlabel := seeks.label_eq
      refine ⟨ha.settled_eq seeks type, _, ha.settlement_eq seeks type, fun other => ?_⟩
      rw [(ha.represents.members_spec key).mem_iff, ha.declared_iff other]
      constructor
      · rintro ⟨label', hlabel', hother⟩
        obtain rfl := Option.some.inj (hlabel.symm.trans hlabel')
        exact ⟨hother ▸ rfl, (ha.label_iff hlabel other).mp hother⟩
      · rintro ⟨-, classmates⟩
        exact ⟨label, hlabel, (ha.label_iff hlabel other).mpr classmates⟩

def newRelay : Process Unit := (create ∅ relay () .empty).2.1

/-- The output finds a type, and the input shows it. -/
theorem setType_outcome_relay :
    newRelay.Reached ∧ newRelay.plugin.Defers ∧
      newRelay.core.groups.forest.size < UInt32.size ∧
      ∃ after, newRelay.setType .empty (.output "out") (.concrete "image") =
          (.ok true, { newRelay with core := after }, .empty) ∧
        (after.port? (.input "in")).map (·.info.type) = some (.concrete "image") := by
  have reached : newRelay.Reached := ⟨∅, (), .empty, [], by decide +kernel, rfl⟩
  have defers : newRelay.plugin.Defers := fun _ _ => rfl
  have few : newRelay.core.groups.forest.size < UInt32.size := by
    decide +kernel
  have hreply : newRelay.core.reply (.output "out") (.concrete "image") = .ok true := by
    decide +kernel
  have hsettles : newRelay.core.settles? (.output "out") (.concrete "image") = some "image" := by
    decide +kernel
  have classmates : newRelay.core.Classmates (.output "out") (.input "in") := by
    decide +kernel
  have declared : (newRelay.core.port? (.input "in")).isSome = true := by
    decide +kernel
  obtain ⟨after, hset, hafter⟩ :=
    setType_outcome reached defers few .empty (.output "out") (.concrete "image")
  rw [hsettles] at hafter
  rw [hreply] at hset
  obtain ⟨port, hport⟩ := Option.isSome_iff_exists.mp declared
  refine ⟨reached, defers, few, after, hset, ?_⟩
  rw [hafter.1.port_eq, if_pos classmates, hport]
  rfl

theorem newCrowd_defers (count : Nat) : (newCrowd count).plugin.Defers := by
  rw [newCrowd_eq]
  exact fun _ _ => rfl

theorem newCrowd_apart (count : Nat) :
    ¬ (newCrowd count).core.Classmates (.output "out") (.output Core.heartbeat) := by
  have htag : (newCrowd count).core.tagOf? (.output "out") = none := by
    rw [Core.tagOf?, (newCrowd_ports count).1]
    rfl
  rintro (hsame | ⟨htagged, -⟩)
  · exact absurd hsame (by decide)
  · rw [htag] at htagged
    exact absurd htagged Bool.false_ne_true

/-- Without a free slot a proposal settles more than its class: the heartbeat carries no data, and
shows the type of an output all the same. -/
theorem setType_reaches_heartbeat :
    crowded.Reached ∧ crowded.plugin.Defers ∧ crowded.core.state ≠ .initialized ∧
      ¬ crowded.core.Classmates (.output "out") (.output Core.heartbeat) ∧
      (crowded.core.port? (.output Core.heartbeat)).map Port.types = some (.none, .none) ∧
      ∃ after, crowded.setType .empty (.output "out") (.concrete "image") =
          (.ok true, { crowded with core := after }, .empty) ∧
        (after.port? (.output Core.heartbeat)).map Port.types = some (.none, .concrete "image") := by
  have full : 1 + (UInt32.size - 1) = UInt32.size := by decide
  obtain ⟨after, hresolve, hafter⟩ := newCrowd_resolve full "image"
  rw [crowded]
  refine ⟨newCrowd_reached _, newCrowd_defers _, newCrowd_early _, newCrowd_apart _, ?_, after, ?_, ?_⟩
  · rw [(newCrowd_ports _).2]
    rfl
  · rw [setType_eq (newCrowd_defers _), hresolve]
  · rw [hafter]
    rfl

end Process

end Dataflow
