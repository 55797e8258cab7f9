import Dataflow.Proofs.Types.Change

/-!
# Ports show what their classes have found

The type of a port is kept twice: the port shows it, and the groups know what the class of the port
has found. `Agrees` says that the two go together, and that a port is in the class of its tag. It
holds from the start and through every change, so that it holds in every world of a life.
-/

namespace Dataflow

/-- The type that a port shows if its class has found this one. Only a port whose type is still to
be found shows another one than its own. -/
def DataType.shown (declared : DataType) (found? : Option String) : DataType :=
  if declared.isDependent then found?.elim declared .concrete else declared

namespace DataType

theorem shown_none (declared : DataType) : declared.shown Option.none = declared := by
  rw [shown, Option.elim_none, ite_self]

theorem shown_some {declared : DataType} (h : declared.isDependent = true) (type : String) :
    declared.shown (some type) = .concrete type := by
  rw [shown, if_pos h, Option.elim_some]

theorem isDependent_of_tag {declared : DataType} {tag : String} (h : declared.tag? = some tag) :
    declared.isDependent = true := by
  cases declared with
  | flowDependent _ => rfl
  | concrete _ | any | none | dataDependent => exact nomatch h

/-- The class that a port of this type is in. -/
def Fits (declared : DataType) : Classes.Label → Prop
  | .tagged tag => declared.tag? = some tag
  | .single _ => declared.tag? = Option.none

theorem fits_next (declared : DataType) (a : Classes) : declared.Fits (a.next declared.tag?) := by
  cases h : declared.tag? with
  | none => exact h
  | some tag => exact h

end DataType

namespace Core

/-- A new port shows what its class has found already. -/
theorem visibleType_eq {g : Groups} {a : Classes} (h : g.Represents a) (declared : DataType) :
    visibleType g declared =
      (declared.shown (declared.tag?.bind fun tag => a.type? (.tagged tag)), g) := by
  rw [visibleType]
  cases htag : declared.tag? with
  | none => rw [Option.bind_none, DataType.shown_none]
  | some tag =>
    have hpin := h.pinOfTag_spec tag
    dsimp only
    rw [Groups.pinOfTag_eq h.flat] at hpin ⊢
    dsimp only at hpin ⊢
    rw [hpin, Option.bind_some]
    cases a.type? (.tagged tag) with
    | none => rw [DataType.shown_none]
    | some type => rw [DataType.shown_some (DataType.isDependent_of_tag htag)]

/-- A core goes together with the classes of its ports. -/
structure Agrees (c : Core) (a : Classes) : Prop where
  represents : c.groups.Represents a
  declared_iff : ∀ key, (c.port? key).isSome = (a.label? key).isSome
  fits : ∀ {key port label}, c.port? key = some port → a.label? key = some label →
    port.declared.Fits label
  type_eq : ∀ {key port}, c.port? key = some port →
    port.info.type = port.declared.shown (a.typeOf key)

namespace Agrees

variable {c after : Core} {a : Classes}

theorem label_of_port (h : c.Agrees a) {key : PortKey} {port : Port}
    (hport : c.port? key = some port) :
    ∃ label, a.label? key = some label ∧ port.declared.Fits label := by
  have hdeclared := h.declared_iff key
  rw [hport, Option.isSome_some] at hdeclared
  obtain ⟨label, hlabel⟩ := Option.isSome_iff_exists.mp hdeclared.symm
  exact ⟨label, hlabel, h.fits hport hlabel⟩

/-- A port with a tag shows what the tag has found. -/
theorem type_of_tag (h : c.Agrees a) {key : PortKey} {port : Port} {tag : String} (htag : tag ≠ "")
    (hport : c.port? key = some port) (hdeclared : port.declared = .flowDependent tag) :
    port.info.type = (DataType.flowDependent tag).shown (a.type? (.tagged tag)) := by
  obtain ⟨label, hlabel, hfits⟩ := h.label_of_port hport
  have htag? : port.declared.tag? = some tag := by
    rw [hdeclared]
    exact if_neg htag
  have hsame : label = .tagged tag := by
    cases label with
    | tagged other => rw [Option.some.inj (hfits.symm.trans htag?)]
    | single number => exact nomatch hfits.symm.trans htag?
  rw [h.type_eq hport, hdeclared, Classes.typeOf, hlabel, Option.bind_some, hsame]

/-! ## Changes that leave the types alone -/

theorem kept (h : c.Agrees a) (groups_eq : after.groups = c.groups)
    (types_eq : ∀ key, (after.port? key).map Port.types = (c.port? key).map Port.types) :
    after.Agrees a where
  represents := groups_eq ▸ h.represents
  declared_iff key := by
    have htypes := congrArg Option.isSome (types_eq key)
    rw [Option.isSome_map, Option.isSome_map] at htypes
    rw [htypes, h.declared_iff key]
  fits {key port label} hafter hlabel := by
    obtain ⟨before, hbefore, hdeclared, -⟩ := port_of_types (types_eq key) hafter
    rw [← hdeclared]
    exact h.fits hbefore hlabel
  type_eq {key port} hafter := by
    obtain ⟨before, hbefore, hdeclared, htype⟩ := port_of_types (types_eq key) hafter
    rw [← htype, ← hdeclared]
    exact h.type_eq hbefore

/-! ## Ports that come and go -/

theorem type_next (h : c.Agrees a) (tag? : Option String) :
    a.type? (a.next tag?) = tag?.bind fun tag => a.type? (.tagged tag) := by
  cases tag? with
  | none => exact h.represents.fresh (Nat.le_refl _)
  | some tag => rfl

theorem declared (h : c.Agrees a) (few : c.groups.forest.size < UInt32.size) (key : PortKey)
    (info : PortInfo) (registry : Registry) :
    (c.withPort key info registry).Agrees (a.join key info.type.tag?) := by
  have hjoin := h.represents.join few key info.type.tag?
  have hvisible := visibleType_eq hjoin info.type
  exact {
    represents := by
      change (visibleType (c.groups.join key info.type.tag?).2 info.type).2.Represents _
      rw [hvisible]
      exact hjoin
    declared_iff := fun other => by
      rw [port?_withPort, Classes.label?_join]
      by_cases hother : other = key
      · rw [if_pos hother, if_pos hother]
        rfl
      · rw [if_neg hother, if_neg hother, h.declared_iff other]
    fits := fun {other port label} hport hlabel => by
      rw [port?_withPort] at hport
      rw [Classes.label?_join] at hlabel
      by_cases hother : other = key
      · rw [if_pos hother] at hport hlabel
        rw [← Option.some.inj hport, ← Option.some.inj hlabel]
        exact info.type.fits_next a
      · rw [if_neg hother] at hport hlabel
        exact h.fits hport hlabel
    type_eq := fun {other port} hport => by
      rw [port?_withPort] at hport
      rw [Classes.typeOf, Classes.label?_join]
      by_cases hother : other = key
      · rw [if_pos hother] at hport ⊢
        rw [← Option.some.inj hport, Option.bind_some]
        change (visibleType _ info.type).1 = info.type.shown (a.type? (a.next info.type.tag?))
        rw [hvisible, h.type_next]
        rfl
      · rw [if_neg hother] at hport ⊢
        exact h.type_eq hport }

theorem removed (h : c.Agrees a) (key : PortKey) : (c.withoutPort key).Agrees (a.leave key) where
  represents := h.represents.leave key
  declared_iff other := by
    rw [port?_withoutPort, Classes.label?_leave]
    by_cases hother : other = key
    · rw [if_pos hother, if_pos hother]
      rfl
    · rw [if_neg hother, if_neg hother, h.declared_iff other]
  fits {other port label} hport hlabel := by
    obtain ⟨hother, hbefore⟩ := port_of_withoutPort hport
    rw [Classes.label?_leave, if_neg hother] at hlabel
    exact h.fits hbefore hlabel
  type_eq {other port} hport := by
    obtain ⟨hother, hbefore⟩ := port_of_withoutPort hport
    rw [Classes.typeOf, Classes.label?_leave, if_neg hother]
    exact h.type_eq hbefore

/-! ## A type is settled -/

/-- All ports of a class that has found no type yet are settled at once. -/
theorem settle_eq (h : c.Agrees a) {key : PortKey} {label : Classes.Label} (type : String)
    (hlabel : a.label? key = some label) (hnone : a.type? label = none) :
    (c.settle key type).2 = (c.groups.members key).1.foldl (retype · (.concrete type))
      { c with groups := (c.groups.settle key type).2 } := by
  have hsettled : (c.groups.settle key type).1 = .settled (c.groups.members key).1 := by
    rw [(h.represents.settle_spec key type).1, Classes.settlement, hlabel]
    dsimp only
    rw [hnone]
  rw [settle_core]
  generalize c.groups.settle key type = settled at hsettled ⊢
  obtain ⟨settlement, groups⟩ := settled
  obtain rfl : settlement = _ := hsettled
  rfl

theorem port?_settle (h : c.Agrees a) {key : PortKey} {label : Classes.Label} (type : String)
    (hlabel : a.label? key = some label) (hnone : a.type? label = none) (other : PortKey) :
    (c.settle key type).2.port? other =
      if a.label? other = some label then
        (c.port? other).map fun port => { port with info := { port.info with type := .concrete type } }
      else c.port? other := by
  have hmem : other ∈ (c.groups.members key).1 ↔ a.label? other = some label := by
    rw [(h.represents.members_spec key).mem_iff, hlabel]
    constructor
    · rintro ⟨label', hsame, hother⟩
      rw [hother, hsame]
    · exact fun hother => ⟨label, rfl, hother⟩
  rw [h.settle_eq type hlabel hnone, port?_retypeAll]
  simp only [hmem]
  rfl

/-- A port keeps its declared type, and shows the settled one if it is of the class. -/
theorem port_of_settle (h : c.Agrees a) {key other : PortKey} {port : Port} {label : Classes.Label}
    (type : String) (hlabel : a.label? key = some label) (hnone : a.type? label = none)
    (hport : (c.settle key type).2.port? other = some port) :
    ∃ before, c.port? other = some before ∧ port.declared = before.declared ∧
      port.info.type = if a.label? other = some label then .concrete type else before.info.type := by
  rw [h.port?_settle type hlabel hnone] at hport
  by_cases hother : a.label? other = some label
  · rw [if_pos hother] at hport
    obtain ⟨before, hbefore, rfl⟩ := Option.map_eq_some_iff.mp hport
    exact ⟨before, hbefore, rfl, (if_pos hother).symm⟩
  · rw [if_neg hother] at hport
    exact ⟨port, hport, rfl, (if_neg hother).symm⟩

/-- Ports that share their class with a dependent one are dependent, too. -/
theorem dependent_of_label (h : c.Agrees a) {key other : PortKey} {port port' : Port}
    {label : Classes.Label} (hport : c.port? key = some port) (hlabel : a.label? key = some label)
    (hport' : c.port? other = some port') (hlabel' : a.label? other = some label)
    (dependent : port.declared.isDependent = true) : port'.declared.isDependent = true := by
  cases label with
  | tagged tag => exact DataType.isDependent_of_tag (h.fits hport' hlabel')
  | single number =>
    -- A class without a tag has one port only.
    obtain rfl := h.represents.alone hlabel hlabel'
    rwa [← Option.some.inj (hport.symm.trans hport')]

theorem unsettled_label (h : c.Agrees a) {key : PortKey} {port : Port}
    (hport : c.port? key = some port) (dependent : port.declared.isDependent = true)
    (unsettled : port.info.type.isConcrete = false) :
    ∃ label, a.label? key = some label ∧ a.type? label = none := by
  obtain ⟨label, hlabel, -⟩ := h.label_of_port hport
  refine ⟨label, hlabel, ?_⟩
  have htype := h.type_eq hport
  rw [Classes.typeOf, hlabel, Option.bind_some] at htype
  cases hfound : a.type? label with
  | none => rfl
  | some type =>
    -- The port would show what its class has found.
    rw [hfound, DataType.shown_some dependent] at htype
    rw [htype] at unsettled
    exact absurd unsettled.symm Bool.false_ne_true

theorem settled (h : c.Agrees a) {key : PortKey} {port : Port} {label : Classes.Label}
    (type : String) (hport : c.port? key = some port)
    (dependent : port.declared.isDependent = true) (hlabel : a.label? key = some label)
    (hnone : a.type? label = none) : (c.settle key type).2.Agrees (a.pin label type) := by
  have hsettle : a.settle key type = a.pin label type := by
    rw [Classes.settle, hlabel]
    exact if_pos hnone
  exact {
    represents := by
      rw [settle_groups, ← hsettle]
      exact (h.represents.settle_spec key type).2
    declared_iff := fun other => by
      change _ = (a.label? other).isSome
      rw [h.port?_settle type hlabel hnone, ← h.declared_iff other]
      split
      · exact Option.isSome_map
      · rfl
    fits := fun {other port' label'} hport' hlabel' => by
      obtain ⟨before, hbefore, hdeclared, -⟩ := h.port_of_settle type hlabel hnone hport'
      rw [hdeclared]
      exact h.fits hbefore hlabel'
    type_eq := fun {other port'} hport' => by
      obtain ⟨before, hbefore, hdeclared, htype⟩ := h.port_of_settle type hlabel hnone hport'
      rw [htype, hdeclared, Classes.typeOf_pin]
      by_cases hsame : a.label? other = some label
      · rw [if_pos hsame, if_pos hsame]
        exact (DataType.shown_some
          (h.dependent_of_label hport hlabel hbefore hsame dependent) type).symm
      · rw [if_neg hsame, if_neg hsame]
        exact h.type_eq hbefore }

/-! ## From one core to the next -/

/-- Whatever becomes of a core, its classes follow, and no type that was found is lost. -/
theorem retyped (h : c.Agrees a) (few : c.groups.forest.size < UInt32.size)
    (hafter : c.Retyped after) :
    ∃ a', after.Agrees a' ∧ ∀ label type, a.type? label = some type → a'.type? label = some type := by
  -- Only a settlement finds a type, and only for a class that had none.
  cases hafter with
  | kept groups_eq types_eq => exact ⟨a, h.kept groups_eq types_eq, fun _ _ => id⟩
  | declared early new => exact ⟨_, h.declared few _ _ _, fun _ _ => id⟩
  | removed early => exact ⟨_, h.removed _, fun _ _ => id⟩
  | @settled key type port early hport dependent unsettled =>
    obtain ⟨label, hlabel, hnone⟩ := h.unsettled_label hport dependent unsettled
    refine ⟨_, h.settled type hport dependent hlabel hnone, fun label' found hfound => ?_⟩
    have hne : label' ≠ label := fun hc => nomatch (hc ▸ hfound).symm.trans hnone
    exact (if_neg hne).trans hfound

end Agrees

/-! ## From the first core on -/

theorem agrees_bare (config : Config) : (bare config).Agrees .empty where
  represents := .empty
  declared_iff key := by
    rw [port?_bare]
    rfl
  fits hport := absurd (hport.symm.trans (port?_bare config _)) (Option.some_ne_none _)
  type_eq hport := absurd (hport.symm.trans (port?_bare config _)) (Option.some_ne_none _)

theorem declareKey_groups (c : Core) (key : String) (info : KeyInfo) :
    (c.declareKey key info).2.groups = c.groups := by
  rw [declareKey]
  split <;> rfl

theorem agrees_ofConfig (config : Config) : ∃ a, (ofConfig config).Agrees a := by
  -- No slot is given out before the heartbeat is declared.
  have few (g : Groups) (hg : g = .empty) : g.forest.size < UInt32.size := by
    rw [hg]
    decide
  have hname := declareKey_groups (bare config) Config.nameKey nameInfo
  have htype := (declareKey_groups ((bare config).declareKey Config.nameKey nameInfo).2
    Config.typeKey typeInfo).trans hname
  obtain ⟨a, ha, -⟩ := (agrees_bare config).retyped (few _ rfl)
    ((bare config).declareKey_touched Config.nameKey nameInfo).retyped
  obtain ⟨a', ha', -⟩ := ha.retyped (few _ hname)
    (((bare config).declareKey Config.nameKey nameInfo).2.declareKey_touched Config.typeKey
      typeInfo).retyped
  obtain ⟨a'', ha'', -⟩ := ha'.retyped (few _ htype) (declare_touched _ _ _).retyped
  exact ⟨a'', ha''⟩

end Core

namespace Unbroken

/-! ## Along a life -/

variable {worlds : List World} {i j : Nat} {w after : World}

/-- Classes follow their core through all worlds. -/
theorem agrees (h : Unbroken True worlds) (hij : i ≤ j) (hw : worlds[i]? = some w)
    (hafter : worlds[j]? = some after) (few : after.core.groups.forest.size < UInt32.size)
    {a : Classes} (ha : w.core.Agrees a) :
    ∃ a', after.core.Agrees a' ∧
      ∀ label type, a.type? label = some type → a'.type? label = some type := by
  induction j, hij using Nat.le_induction generalizing after with
  | base =>
    obtain rfl := Option.some.inj (hw.symm.trans hafter)
    exact ⟨a, ha, fun _ _ => id⟩
  | succ j hij ih =>
    obtain ⟨mid, hmid⟩ := mid hafter
    have hmoved := (h.moved hmid hafter).retyped
    have hfew := Nat.lt_of_le_of_lt hmoved.size_le few
    obtain ⟨a', ha', hfound⟩ := ih hmid hfew
    obtain ⟨a'', ha'', hfound'⟩ := ha'.retyped hfew hmoved
    exact ⟨a'', ha'', fun label type hlabel => hfound' _ _ (hfound _ _ hlabel)⟩

end Unbroken

namespace Process

variable {σ : Type} {config : Config} {plugin : Plugin σ} {memory : σ} {edges : Edges}
  {commands : List (Edges × Command)}

/-- In every world of a life the ports agree with their classes. -/
theorem agrees_of_life {i : Nat} {w : World}
    (hw : (life config plugin memory edges commands)[i]? = some w)
    (few : w.core.groups.forest.size < UInt32.size) : ∃ a, w.core.Agrees a := by
  obtain ⟨a, ha⟩ := Core.agrees_ofConfig config
  obtain ⟨a', ha', -⟩ := (unbroken_life config plugin memory edges commands).agrees
    (Nat.zero_le i) (first_of_life config plugin memory edges commands) hw few ha
  exact ⟨a', ha'⟩

/-- In every world of a life the ports that have a slot are the declared ones, every port shows what
its class has found, and two ports with one tag show one type or none. Each declaration takes a
slot, and there are slots for as many as a slot can count. -/
theorem life_types_agree {w : World} (hw : w ∈ life config plugin memory edges commands)
    (few : w.core.groups.forest.size < UInt32.size) :
    (∀ key, (w.core.groups.slot? key).isSome = (w.core.port? key).isSome) ∧
      (∀ key port, w.core.port? key = some port →
        port.info.type = port.declared.shown (w.core.groups.pin key).1) ∧
      ∀ key key' port port' tag, tag ≠ "" → w.core.port? key = some port →
        w.core.port? key' = some port' → port.declared = .flowDependent tag →
        port'.declared = .flowDependent tag →
        (∃ type, port.info.type = .concrete type ∧ port'.info.type = .concrete type) ∨
          port.info.type = .flowDependent tag ∧ port'.info.type = .flowDependent tag := by
  obtain ⟨i, hi⟩ := List.mem_iff_getElem?.mp hw
  obtain ⟨a, ha⟩ := agrees_of_life hi few
  refine ⟨fun key => ?_, fun key port hport => ?_, ?_⟩
  · rw [ha.represents.live key, ha.declared_iff key]
  · rw [ha.represents.pin_spec key]
    exact ha.type_eq hport
  · intro key key' port port' tag htag hport hport' hdeclared hdeclared'
    rw [ha.type_of_tag htag hport hdeclared, ha.type_of_tag htag hport' hdeclared']
    cases a.type? (.tagged tag) with
    | none => exact .inr ⟨rfl, rfl⟩
    | some type => exact .inl ⟨type, rfl, rfl⟩

/-- A plugin with an input and an output that share a tag. -/
def relay : Plugin Unit :=
  let info : PortInfo := ⟨.flowDependent "t", .empty, "", .one⟩
  { Plugin.idle Unit with
    declare := do
      Reaction.request (.declare (.input "in") info)
      Reaction.request (.declare (.output "out") info) }

/-- A life in which the output is given a type. -/
def relayed : List World :=
  life ∅ relay () .empty [(.empty, .setType (.output "out") (.concrete "image"))]

/-- Then the input shows the same type. -/
theorem life_types_agree_relayed :
    ∃ w ∈ relayed, w.core.groups.forest.size < UInt32.size ∧
      ∃ port port' type, w.core.port? (.input "in") = some port ∧
        w.core.port? (.output "out") = some port' ∧ port.info.type = .concrete type ∧
        port'.info.type = .concrete type := by
  have hend : relayed.getLast?.map (fun w => (w.core.groups.forest.size,
      (w.core.port? (.input "in")).map Port.types, (w.core.port? (.output "out")).map Port.types)) =
      some (3, some (.flowDependent "t", .concrete "image"),
        some (.flowDependent "t", .concrete "image")) := by
    decide +kernel
  obtain ⟨w, hlast, hw⟩ := Option.map_eq_some_iff.mp hend
  simp only [Prod.mk.injEq, Option.map_eq_some_iff] at hw
  obtain ⟨hsize, ⟨port, hport, htypes⟩, port', hport', htypes'⟩ := hw
  have hmem : w ∈ relayed := List.mem_of_getLast? hlast
  have few : w.core.groups.forest.size < UInt32.size := by
    rw [hsize]
    decide
  obtain ⟨-, -, htags⟩ := life_types_agree hmem few
  refine ⟨w, hmem, few, port, port', ?_⟩
  rcases htags _ _ port port' "t" (by decide) hport hport' (congrArg Prod.fst htypes)
    (congrArg Prod.fst htypes') with ⟨type, htype, htype'⟩ | ⟨htype, -⟩
  · exact ⟨type, hport, hport', htype, htype'⟩
  · exact nomatch htype.symm.trans (congrArg Prod.snd htypes)

end Process

end Dataflow
