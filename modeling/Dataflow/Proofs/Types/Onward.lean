import Dataflow.Proofs.Groups.Sound
import Dataflow.Proofs.Types.Change

/-!
# A port finds its type once

A port whose type is to be found shows the declared one until it shows a named one, and that it
shows as long as it stays. For this a port must never show a type while its class has none, because
then the class could be settled for another type.
-/

namespace Dataflow

/-- What may become of a port that stays. -/
def Port.Onward (port port' : Port) : Prop :=
  port'.declared = port.declared ∧ (port.declared.isDependent = true →
    port'.info.type = port.info.type ∨
      port.info.type = port.declared ∧ ∃ type, port'.info.type = .concrete type)

namespace Port.Onward

variable {port mid port' : Port}

theorem of_types (h : port'.types = port.types) : port.Onward port' :=
  ⟨congrArg Prod.fst h, fun _ => .inl (congrArg Prod.snd h)⟩

theorem trans (h : port.Onward mid) (h' : mid.Onward port') : port.Onward port' := by
  refine ⟨h'.1.trans h.1, fun dependent => ?_⟩
  have dependent' : mid.declared.isDependent = true := h.1 ▸ dependent
  rcases h.2 dependent with hsame | ⟨hdeclared, type, htype⟩
  · rcases h'.2 dependent' with hsame' | ⟨hdeclared', htype'⟩
    · exact .inl (hsame'.trans hsame)
    · exact .inr ⟨hsame.symm.trans (hdeclared'.trans h.1), htype'⟩
  · rcases h'.2 dependent' with hsame' | ⟨-, htype'⟩
    · exact .inr ⟨hdeclared, type, hsame'.trans htype⟩
    · exact .inr ⟨hdeclared, htype'⟩

end Port.Onward

namespace Core

/-- A new port shows its declared type, or one that the class of its tag has found. -/
theorem visibleType_sound {g : Groups} (h : g.Sound) (declared : DataType) :
    g.Shortened (visibleType g declared).2 ∧
      ((visibleType g declared).1 = declared ∨
        ∃ tag first, declared.tag? = some tag ∧ g.tags[tag]? = some first ∧
          (g.found? first).isSome ∧ ∃ type, (visibleType g declared).1 = .concrete type) := by
  rw [visibleType]
  cases htag : declared.tag? with
  | none => exact ⟨.refl h, .inl rfl⟩
  | some tag =>
    obtain ⟨hpin, hshort⟩ := h.pinOfTag tag
    dsimp only
    generalize g.pinOfTag tag = read at hpin hshort ⊢
    obtain ⟨found, after⟩ := read
    cases found with
    | none => exact ⟨hshort, .inl rfl⟩
    | some type =>
      obtain ⟨first, hfirst, hfound⟩ := Option.bind_eq_some_iff.mp hpin.symm
      refine ⟨hshort, .inr ⟨tag, first, rfl, hfirst, ?_, type, rfl⟩⟩
      rw [hfound]
      rfl

/-- Every port has a slot, and shows a type that it has found only with its class. -/
structure Sound (c : Core) : Prop where
  groups : c.groups.Sound
  live : ∀ {key port}, c.port? key = some port → ∃ slot, c.groups.slot? key = some slot
  shows : ∀ {key port}, c.port? key = some port → port.declared.isDependent = true →
    port.info.type = port.declared ∨ (∃ type, port.info.type = .concrete type) ∧ c.groups.Pinned key

namespace Sound

variable {c after : Core}

theorem bare (config : Config) : (bare config).Sound where
  groups := .empty
  live hport := absurd (hport.symm.trans (port?_bare config _)) (Option.some_ne_none _)
  shows hport := absurd (hport.symm.trans (port?_bare config _)) (Option.some_ne_none _)

theorem kept (h : c.Sound) (groups_eq : after.groups = c.groups)
    (types_eq : ∀ key, (after.port? key).map Port.types = (c.port? key).map Port.types) :
    after.Sound where
  groups := groups_eq ▸ h.groups
  live {key port} hafter := by
    obtain ⟨before, hbefore, -⟩ := port_of_types (types_eq key) hafter
    rw [groups_eq]
    exact h.live hbefore
  shows {key port} hafter dependent := by
    obtain ⟨before, hbefore, hdeclared, htype⟩ := port_of_types (types_eq key) hafter
    rw [← hdeclared] at dependent
    rw [groups_eq, ← htype, ← hdeclared]
    exact h.shows hbefore dependent

theorem declared (h : c.Sound) (key : PortKey) (info : PortInfo) (registry : Registry) :
    (c.withPort key info registry).Sound := by
  have hjoin := h.groups.join key info.type.tag?
  obtain ⟨hshort, hvisible⟩ := visibleType_sound hjoin.sound info.type
  have hslot (other : PortKey) : (c.withPort key info registry).groups.slot? other =
      if other = key then some c.groups.forest.grow.1 else c.groups.slot? other :=
    (hshort.slot?_eq other).trans (hjoin.slot_eq other)
  exact {
    groups := hshort.sound hjoin.sound
    live := fun {other port} hport => by
      rw [port?_withPort] at hport
      rw [hslot]
      split
      · exact ⟨_, rfl⟩
      · rename_i hother
        rw [if_neg hother] at hport
        exact h.live hport
    shows := fun {other port} hport dependent => by
      rw [port?_withPort] at hport
      by_cases hother : other = key
      · rw [if_pos hother] at hport
        rw [← Option.some.inj hport]
        rcases hvisible with hsame | ⟨tag, first, htag, hfirst, hfound, htype⟩
        · exact .inl hsame
        · -- The new slot has come into the class that the type was read from.
          refine .inr ⟨htype, hshort.pinned ⟨c.groups.forest.grow.1, ?_, ?_⟩⟩
          · rw [hjoin.slot_eq, if_pos hother]
          · rwa [Groups.found?, ← hjoin.together htag hfirst]
      · rw [if_neg hother] at hport
        rcases h.shows hport dependent with hsame | ⟨htype, slot, hown, hfound⟩
        · exact .inl hsame
        · refine .inr ⟨htype, hshort.pinned ⟨slot, ?_, hjoin.keeps slot hfound⟩⟩
          rw [hjoin.slot_eq, if_neg hother, hown] }

theorem removed (h : c.Sound) (key : PortKey) : (c.withoutPort key).Sound := by
  have hslot {other : PortKey} (hother : other ≠ key) :
      (c.groups.leave key).slot? other = c.groups.slot? other :=
    (Lookup.getElem?_erase c.groups.slots key other).trans (if_neg hother)
  exact {
    groups := h.groups.leave key
    live := fun hafter => by
      obtain ⟨hother, hbefore⟩ := port_of_withoutPort hafter
      obtain ⟨slot, hown⟩ := h.live hbefore
      exact ⟨slot, (hslot hother).trans hown⟩
    shows := fun hafter dependent => by
      obtain ⟨hother, hbefore⟩ := port_of_withoutPort hafter
      rcases h.shows hbefore dependent with hsame | ⟨htype, slot, hown, hfound⟩
      · exact .inl hsame
      · exact .inr ⟨htype, slot, (hslot hother).trans hown, hfound⟩ }

/-- A settlement leaves a port as it is, or gives it the type that its class has now. -/
theorem port_of_settle (h : c.Sound) {key other : PortKey} {port port' : Port} (type : String)
    (hport : c.port? key = some port) (dependent : port.declared.isDependent = true)
    (unsettled : port.info.type.isConcrete = false)
    (hafter : (c.settle key type).2.port? other = some port') :
    c.port? other = some port' ∨ ∃ before, c.port? other = some before ∧
      port'.declared = before.declared ∧ port'.info.type = .concrete type ∧
      (before.declared.isDependent = true → before.info.type = before.declared) ∧
      (c.groups.settle key type).2.Pinned other := by
  obtain ⟨slot, hslot⟩ := h.live hport
  have hdecided := h.groups.settle hslot type
  rw [settle_core] at hafter
  generalize c.groups.settle key type = decided at hdecided hafter ⊢
  cases hdecided with
  | @known found after found_eq shortened =>
    by_cases hsame : found = type
    · rw [if_pos hsame] at hafter
      change (modifyPort _ _ _).port? other = _ at hafter
      rw [port?_modifyPort] at hafter
      by_cases hother : other = key
      · rw [if_pos hother, hother] at hafter
        obtain ⟨before, hbefore, rfl⟩ := Option.map_eq_some_iff.mp hafter
        obtain rfl : port = before := Option.some.inj (hport.symm.trans hbefore)
        refine .inr ⟨port, hother ▸ hport, rfl, rfl, fun _ => ?_, hother ▸ shortened.pinned ?_⟩
        · -- The port does not show what its class has found.
          rcases h.shows hport dependent with hsame | ⟨⟨_, htype⟩, -⟩
          · exact hsame
          · rw [htype] at unsettled
            exact absurd unsettled.symm Bool.false_ne_true
        · exact ⟨slot, hslot, found_eq ▸ rfl⟩
      · rw [if_neg hother] at hafter
        exact .inl hafter
    · rw [if_neg hsame] at hafter
      exact .inl hafter
  | @settled members after found_eq sound slot_eq keeps classmates =>
    dsimp only at hafter
    rw [port?_retypeAll] at hafter
    by_cases hmember : other ∈ members
    · rw [if_pos hmember] at hafter
      obtain ⟨before, hbefore, rfl⟩ := Option.map_eq_some_iff.mp hafter
      obtain ⟨slot', hslot', hopen, hfound⟩ := classmates other hmember
      refine .inr ⟨before, hbefore, rfl, rfl, fun dependent' => ?_, slot', ?_, hfound⟩
      · -- It would show a type only if their class had one.
        rcases h.shows hbefore dependent' with hsame | ⟨-, own, hown, hpinned⟩
        · exact hsame
        · rw [← Option.some.inj (hslot'.symm.trans hown), hopen] at hpinned
          exact absurd hpinned Bool.false_ne_true
      · rw [slot_eq, hslot']
    · rw [if_neg hmember] at hafter
      exact .inl hafter

theorem settled (h : c.Sound) {key : PortKey} {port : Port} (type : String)
    (hport : c.port? key = some port) (dependent : port.declared.isDependent = true)
    (unsettled : port.info.type.isConcrete = false) : (c.settle key type).2.Sound := by
  obtain ⟨slot, hslot⟩ := h.live hport
  obtain ⟨hgroups, hslots, hkeeps⟩ := (h.groups.settle hslot type).keeps h.groups
  constructor
  · rwa [settle_groups]
  · intro other port' hafter
    rw [settle_groups, hslots]
    rcases h.port_of_settle type hport dependent unsettled hafter with hbefore | ⟨before, hbefore, -⟩
    · exact h.live hbefore
    · exact h.live hbefore
  · intro other port' hafter dependent'
    rw [settle_groups]
    rcases h.port_of_settle type hport dependent unsettled hafter with
      hbefore | ⟨before, hbefore, -, htype, -, hpinned⟩
    · exact (h.shows hbefore dependent').imp_right (And.imp_right (hkeeps other))
    · exact .inr ⟨⟨type, htype⟩, hpinned⟩

/-- Whatever becomes of a core, it stays sound. -/
theorem retyped (h : c.Sound) (hafter : c.Retyped after) : after.Sound := by
  cases hafter with
  | kept groups_eq types_eq => exact h.kept groups_eq types_eq
  | declared early new => exact h.declared _ _ _
  | removed early => exact h.removed _
  | settled early declared dependent unsettled => exact h.settled _ declared dependent unsettled

theorem onward (h : c.Sound) (hafter : c.Retyped after) {key : PortKey} {port port' : Port}
    (hport : c.port? key = some port) (hport' : after.port? key = some port') :
    port.Onward port' := by
  cases hafter with
  | kept groups_eq types_eq =>
    have htypes := types_eq key
    rw [hport, hport'] at htypes
    exact .of_types (Option.some.inj htypes)
  | @declared other info registry early new =>
    have hother : key ≠ other := by
      rintro rfl
      exact nomatch new.symm.trans hport
    rw [port?_withPort, if_neg hother, hport] at hport'
    exact .of_types (congrArg Port.types (Option.some.inj hport')).symm
  | @removed other early =>
    have hbefore := (port_of_withoutPort hport').2
    exact .of_types (congrArg Port.types (Option.some.inj (hport.symm.trans hbefore))).symm
  | @settled other type owner early declared dependent unsettled =>
    rcases h.port_of_settle type declared dependent unsettled hport' with
      hbefore | ⟨before, hbefore, hdeclared, htype, hopen, -⟩
    · exact .of_types (congrArg Port.types (Option.some.inj (hport.symm.trans hbefore))).symm
    · obtain rfl : port = before := Option.some.inj (hport.symm.trans hbefore)
      exact ⟨hdeclared, fun dependent' => .inr ⟨hopen dependent', type, htype⟩⟩

theorem ofConfig (config : Config) : (ofConfig config).Sound :=
  (((Sound.bare config).retyped (declareKey_touched _ _ _).retyped).retyped
    (declareKey_touched _ _ _).retyped).retyped (declare_touched _ _ _).retyped

end Sound

end Core

namespace Unbroken

variable {worlds : List World} {i j : Nat} {w after : World}

theorem sound (h : Unbroken True worlds) (hij : i ≤ j) (hw : worlds[i]? = some w)
    (hafter : worlds[j]? = some after) (sound : w.core.Sound) : after.core.Sound :=
  h.keeps (fun _ _ moved hsound => hsound.retyped moved.retyped) hij hw hafter sound

/-- A port that is there all the time goes onward. -/
theorem onward (h : Unbroken True worlds) (hij : i ≤ j) (hw : worlds[i]? = some w)
    (hafter : worlds[j]? = some after) (sound : w.core.Sound) {key : PortKey} {port port' : Port}
    (hport : w.core.port? key = some port) (hport' : after.core.port? key = some port')
    (hthere : ∀ k mid, i ≤ k → k ≤ j → worlds[k]? = some mid → (mid.core.port? key).isSome) :
    port.Onward port' := by
  induction j, hij using Nat.le_induction generalizing after port' with
  | base =>
    obtain rfl := Option.some.inj (hw.symm.trans hafter)
    exact .of_types (congrArg Port.types (Option.some.inj (hport'.symm.trans hport)))
  | succ j hij ih =>
    obtain ⟨mid, hmid⟩ := mid hafter
    obtain ⟨portMid, hportMid⟩ :=
      Option.isSome_iff_exists.mp (hthere j mid hij (Nat.le_succ j) hmid)
    have hbefore := ih hmid hportMid fun k mid hik hkj => hthere k mid hik (Nat.le_succ_of_le hkj)
    exact hbefore.trans
      ((h.sound hij hw hmid sound).onward (h.moved hmid hafter).retyped hportMid hport')

end Unbroken

/-- In every world of a life the core is sound. -/
theorem Process.sound_of_life {σ : Type} {config : Config} {plugin : Plugin σ} {memory : σ}
    {edges : Edges} {commands : List (Edges × Command)} {i : Nat} {w : World}
    (hw : (life config plugin memory edges commands)[i]? = some w) : w.core.Sound :=
  (unbroken_life config plugin memory edges commands).sound (Nat.zero_le i)
    (first_of_life config plugin memory edges commands) hw (.ofConfig config)

end Dataflow
