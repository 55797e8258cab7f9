import Dataflow.Proofs.Process.Task
import Dataflow.Proofs.Types.Agreement
import Dataflow.Proofs.Types.Onward
import Dataflow.Proofs.Types.Proposal

/-!
# A type that is found stays

A port finds its type once. It shows its declared type until then and the found one ever after, over
resets and failures, as long as it stays. No type is found by an initialized process. What a tag has
found outlives even the ports that have it, until slots are given out again: then a port may come with
its tag into a class that has found another type.
-/

namespace Dataflow

namespace Core.Agrees

variable {c : Core} {a : Classes} {port : Port} {key : PortKey}

/-- A tag has found the type that a port with the tag shows. -/
theorem type_of_shown (h : c.Agrees a) {tag type : String} (htag : tag ≠ "")
    (hport : c.port? key = some port) (hdeclared : port.declared = .flowDependent tag)
    (htype : port.info.type = .concrete type) : a.type? (.tagged tag) = some type := by
  rw [h.type_of_tag htag hport hdeclared] at htype
  cases hfound : a.type? (.tagged tag) with
  | none =>
    rw [hfound, DataType.shown_none] at htype
    exact nomatch htype
  | some found =>
    rw [hfound, DataType.shown_some rfl, DataType.concrete.injEq] at htype
    rw [htype]

end Core.Agrees

namespace Process

variable {σ : Type} {config : Config} {plugin : Plugin σ} {memory : σ} {edges : Edges}
  {commands : List (Edges × Command)}

/-- From one world of a life to any later one: a port that stays in between goes onward; no type
changes next to a world with the process initialized; and once a tag has found its type, every port
that has the tag shows it, as long as no slot is given out twice. -/
theorem life_types_permanent {i j : Nat} (hij : i ≤ j) {w after : World}
    (hw : (life config plugin memory edges commands)[i]? = some w)
    (hafter : (life config plugin memory edges commands)[j]? = some after) :
    (∀ key port port', w.core.port? key = some port → after.core.port? key = some port' →
      (∀ k mid, i ≤ k → k ≤ j → (life config plugin memory edges commands)[k]? = some mid →
        (mid.core.port? key).isSome) → port.Onward port') ∧
      (j = i + 1 → w.core.state = .initialized ∨ after.core.state = .initialized →
        ∀ key port port', w.core.port? key = some port → after.core.port? key = some port' →
          port'.info.type = port.info.type) ∧
      (after.core.groups.forest.size < UInt32.size → ∀ tag type, tag ≠ "" →
        ((w.core.groups.pinOfTag tag).1 = some type ∨
          ∃ key port, w.core.port? key = some port ∧ port.declared = .flowDependent tag ∧
            port.info.type = .concrete type) →
        ∀ key port', after.core.port? key = some port' → port'.declared = .flowDependent tag →
          port'.info.type = .concrete type) := by
  have hlife := unbroken_life config plugin memory edges commands
  refine ⟨?_, ?_, ?_⟩
  · intro key port port' hport hport' hthere
    exact hlife.onward hij hw hafter (sound_of_life hw) hport hport' hthere
  · intro hnext running key port port' hport hport'
    subst hnext
    have htypes := (hlife.moved hw hafter).retyped.types_eq running key
    rw [hport, hport'] at htypes
    exact congrArg Prod.snd (Option.some.inj htypes)
  · intro few tag type htag hbefore key port' hport' hdeclared
    obtain ⟨a, ha⟩ := agrees_of_life hw (Nat.lt_of_le_of_lt (hlife.size_le hij hw hafter) few)
    obtain ⟨a', ha', hfound⟩ := hlife.agrees hij hw hafter few ha
    have hown : a.type? (.tagged tag) = some type := by
      rcases hbefore with hpin | ⟨key, port, hport, hdeclared, htype⟩
      · rwa [ha.represents.pinOfTag_spec] at hpin
      · exact ha.type_of_shown htag hport hdeclared htype
    rw [ha'.type_of_tag htag hport' hdeclared, hfound _ _ hown, DataType.shown_some rfl]

/-- A plugin that gives up the port with the tag when it is reset, and declares another one. -/
def shifting : Plugin Unit :=
  let info : PortInfo := ⟨.flowDependent "t", .empty, "", .one⟩
  { Plugin.idle Unit with
    declare := Reaction.request (.declare (.input "early") info)
    reset := do
      Reaction.request (.remove (.input "early"))
      Reaction.request (.declare (.output "late") info) }

/-- A life in which the tag finds its type before the reset. -/
def shifted : List World :=
  life ∅ shifting () .empty
    [(.empty, .setType (.input "early") (.concrete "image")), (.empty, .reset)]

/-- The new port shows the type that was found for the old one. -/
theorem life_types_permanent_shifted :
    ∃ w after : World, shifted[4]? = some w ∧ shifted[8]? = some after ∧
      after.core.groups.forest.size < UInt32.size ∧ w.core.port? (.output "late") = none ∧
      after.core.port? (.input "early") = none ∧
      ∃ port, after.core.port? (.output "late") = some port ∧ port.info.type = .concrete "image" := by
  have hearly : shifted[4]?.map (fun w => ((w.core.groups.pinOfTag "t").1,
      w.core.port? (.output "late"))) = some (some "image", none) := by
    decide +kernel
  have hlate : shifted[8]?.map (fun w => (w.core.groups.forest.size,
      w.core.port? (.input "early"), (w.core.port? (.output "late")).map Port.declared)) =
      some (3, none, some (.flowDependent "t")) := by
    decide +kernel
  obtain ⟨w, hw, hbefore⟩ := Option.map_eq_some_iff.mp hearly
  obtain ⟨after, hafter, hbehind⟩ := Option.map_eq_some_iff.mp hlate
  simp only [Prod.mk.injEq, Option.map_eq_some_iff] at hbefore hbehind
  obtain ⟨hpin, hnone⟩ := hbefore
  obtain ⟨hsize, hgone, port, hport, hdeclared⟩ := hbehind
  have few : after.core.groups.forest.size < UInt32.size := by
    rw [hsize]
    decide
  obtain ⟨-, -, htags⟩ := life_types_permanent (by decide) hw hafter
  exact ⟨w, after, hw, hafter, few, hnone, hgone, port, hport,
    htags few "t" "image" (by decide) (.inl hpin) _ port hport hdeclared⟩

/-! ## Without a free slot -/

/-- A plugin that uses up so many slots before it declares one more port with a tag. -/
def delaying (count : Nat) : Plugin Unit :=
  { Plugin.idle Unit with
    declare := do
      Reaction.request (.declare (.input "one") (.plain (.flowDependent "u")))
      Reaction.request (.declare (.input "other") (.plain (.flowDependent "u")))
      Reaction.request (.declare (.input "early") (.plain (.flowDependent "t")))
    configure := Reaction.crowd count (.input "late") (.flowDependent "t") }

def proposals : List (Edges × Command) :=
  [(.empty, .setType (.input "one") (.concrete "sound")),
    (.empty, .setType (.input "early") (.concrete "image"))]

/-- A process that is still to be configured. Both tags have found their types. -/
def delayed (count : Nat) : Process Unit :=
  (create ∅ (delaying count) () .empty).2.1.follow proposals

theorem follow_proposals {p : Process Unit} (defers : p.plugin.Defers) :
    (p.follow proposals).core =
      ((p.core.resolve (.input "one") (.concrete "sound")).2.resolve (.input "early")
        (.concrete "image")).2 := by
  rw [proposals, follow, perform, setType_eq defers, follow, perform, setType_eq (by exact defers),
    follow]

theorem delayed_plugin (count : Nat) : (delayed count).plugin = delaying count := by
  rw [delayed, follow_plugin, create_plugin]

/-- How many slots will be used up does not show yet. -/
theorem delayed_core (count : Nat) : (delayed count).core = (delayed 0).core := by
  have defers (count : Nat) : (create ∅ (delaying count) () .empty).2.1.plugin.Defers := by
    rw [create_plugin]
    exact fun _ _ => rfl
  have hdeclare : (delaying count).declare = (delaying 0).declare := rfl
  rw [delayed, delayed, follow_proposals (defers count), follow_proposals (defers 0), create_core,
    create_core, hdeclare]

theorem delayed_eq (count : Nat) : delayed count = ⟨(delayed 0).core, delaying count, ()⟩ := by
  rw [← delayed_core count, ← delayed_plugin count]

theorem delayed_reached (count : Nat) : (delayed count).Reached := by
  have hdeclare : (delaying count).declare = (delaying 0).declare := rfl
  refine ⟨∅, (), .empty, proposals, ?_, ?_⟩
  · rw [delayed_plugin, create_fst, hdeclare]
    decide +kernel
  · rw [delayed_plugin, delayed]

theorem delayed_zero :
    (delayed 0).core.state = .created ∧ (delayed 0).core.groups.forest.size = 4 ∧
      (delayed 0).core.groups.forest.Ranked ∧
      (delayed 0).core.groups.tags["t"]? = some (Slot.ofIndex 3) ∧
      (delayed 0).core.groups.forest.rank ((delayed 0).core.groups.forest.root (Slot.ofIndex 3)) <
        (delayed 0).core.groups.forest.rank ((delayed 0).core.groups.forest.root (Slot.ofIndex 1)) ∧
      (delayed 0).core.groups.found? (Slot.ofIndex 1) = some "sound" ∧
      ((delayed 0).core.groups.pinOfTag "t").1 = some "image" ∧
      (delayed 0).core.port? (.input "late") = none ∧
      (delayed 0).core.port? (.input "passing") = none ∧
      (delayed 0).core.groups.slot? (.input "passing") = none := by
  decide +kernel

theorem configure_delaying {c : Core} {count : Nat} (created : c.state = .created)
    (new : c.port? (.input "late") = none) (hpassing : c.port? (.input "passing") = none)
    (hfree : c.groups.slot? (.input "passing") = none) :
    (configure ⟨c, delaying count, ()⟩ .empty).2.1.core.port? (.input "late") =
      ((c.widened count).withPort (.input "late") (.plain (.flowDependent "t")) c.registry).port?
        (.input "late") := by
  have early : c.state ≠ .initialized := by
    rw [created]
    decide
  let late := (c.widened count).withPort (.input "late") (.plain (.flowDependent "t")) c.registry
  have hrun : Hook.run ((delaying count).configure ()) ⟨c, .empty⟩ = ((.ok (), ()), ⟨late, .empty⟩) :=
    Reaction.run_crowd early hpassing hfree new count (.flowDependent "t") ()
  rw [configure, if_pos created, advance, react_of_run ⟨c, delaying count, ()⟩ .empty hrun]
  rfl

/-- The new port gets a slot of the class of `u`, and `t` goes along with it. -/
theorem delayed_late {count : Nat} (full : 4 + count = UInt32.size + 1) :
    (((delayed count).follow [(.empty, .configure)]).core.port? (.input "late")).map Port.types =
      some (.flowDependent "t", .concrete "sound") := by
  have sound := (delayed_reached 0).sound
  obtain ⟨created, hsize, ranked, htag, hlt, hfound, -, new, hpassing, hfree⟩ := delayed_zero
  rw [delayed_eq, follow, follow, perform]
  generalize (delayed 0).core = c at *
  have hgrow : (c.widened count).groups.forest.grow.1 = Slot.ofIndex 1 :=
    Core.grow_widened (by rw [hsize, full])
  have hroot := (ranked.rooted.widened count).2
  have hrank := c.groups.forest.rank_widened count
  -- The class of `u` has two members, so that its rank is higher than that of `t`.
  rw [configure_delaying created new hpassing hfree]
  refine (sound.widened count).carried_along (ranked.widened count) htag ?_ ?_ (.input "late") rfl _
  · rw [hgrow]
    change (Forest.widened _ count).rank ((Forest.widened _ count).root _) <
      (Forest.widened _ count).rank ((Forest.widened _ count).root _)
    rwa [hroot, hroot, hrank, hrank]
  · rw [hgrow, sound.found?_widened, hfound]

/-- A tag has found a type, and a port that comes late with the tag shows another one, because no slot
was left for it. -/
theorem tag_shows_other_type :
    (delayed (UInt32.size - 3)).Reached ∧
      ((delayed (UInt32.size - 3)).core.groups.pinOfTag "t").1 = some "image" ∧
      (((delayed (UInt32.size - 3)).follow [(.empty, .configure)]).core.port? (.input "late")).map
        Port.types = some (.flowDependent "t", .concrete "sound") := by
  have full : 4 + (UInt32.size - 3) = UInt32.size + 1 := by decide
  obtain ⟨-, -, -, -, -, -, hpin, -⟩ := delayed_zero
  refine ⟨delayed_reached _, ?_, delayed_late full⟩
  rw [delayed_core]
  exact hpin

end Process

end Dataflow
