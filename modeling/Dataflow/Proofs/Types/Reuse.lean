import Dataflow.Proofs.Groups.Ranks
import Dataflow.Proofs.Process.Freeze
import Dataflow.Proofs.Process.Watch
import Dataflow.Proofs.Types.Onward

/-!
# Slots that are given out again

Slots have numbers of 32 bits, and a port that is removed does not give its slot back. A process that
declares and removes ports for long enough comes to the first slots again, so that a new port gets the
slot of an older one. From then on the two find their type together, whatever their tags are, and a
new port with a tag may take its tag along into a class that has found another type.
-/

namespace Dataflow

theorem Slot.ofIndex_size_add (n : Nat) : ofIndex (UInt32.size + n) = ofIndex n := by
  apply index_inj
  change (UInt32.ofNat (UInt32.size + n)).toNat = (UInt32.ofNat n).toNat
  rw [UInt32.toNat_ofNat', UInt32.toNat_ofNat', Nat.add_mod_left]

/-! ## Many more slots -/

namespace Forest

/-- The forest with so many more slots. -/
def widened (f : Forest) : Nat → Forest
  | 0 => f
  | count + 1 => f.grow.2.widened count

@[simp] theorem size_widened (f : Forest) (count : Nat) :
    (f.widened count).size = f.size + count := by
  induction count generalizing f with
  | zero => rfl
  | succ count ih => rw [widened, ih, size_grow, Nat.add_assoc, Nat.add_comm 1]

theorem has_widened {f : Forest} {slot : Slot} (h : f.Has slot) (count : Nat) :
    (f.widened count).Has slot := by
  rw [Has, size_widened]
  exact Nat.lt_add_right count h

theorem read_widened {β : Type} (read : Option Node → β) (f : Forest) {slot : Slot}
    (h : read (some ⟨slot, 0, none⟩) = read none) (count : Nat) :
    read ((f.widened count).nodes[slot.index]?) = read (f.nodes[slot.index]?) := by
  induction count generalizing f with
  | zero => rfl
  | succ count ih => rw [widened, ih, read_grow read f h]

theorem parent_widened (f : Forest) (count : Nat) (slot : Slot) :
    (f.widened count).parent slot = f.parent slot :=
  read_widened (·.elim slot Node.parent) f rfl count

theorem rank_widened (f : Forest) (count : Nat) (slot : Slot) :
    (f.widened count).rank slot = f.rank slot :=
  read_widened (·.elim 0 Node.rank) f rfl count

theorem pin_widened (f : Forest) (count : Nat) (slot : Slot) :
    (f.widened count).pin slot = f.pin slot :=
  read_widened (·.bind Node.pin) f rfl count

theorem Rooted.widened {f : Forest} (h : f.Rooted) (count : Nat) :
    (f.widened count).Rooted ∧ ∀ slot, (f.widened count).root slot = f.root slot :=
  h.of_parent_eq (f.parent_widened count) fun _ has => has_widened has count

theorem Ranked.widened {f : Forest} (h : f.Ranked) (count : Nat) : (f.widened count).Ranked where
  has_parent := (h.rooted.widened count).1.has_parent
  rank_lt slot below := by
    rw [parent_widened] at below ⊢
    rw [rank_widened, rank_widened]
    exact h.rank_lt slot below

/-- Where two classes are joined, the type of the one with the higher rank stays. -/
theorem Ranked.pin_union {f : Forest} (h : f.Ranked) {a b : Slot} (ha : f.Has a) (hb : f.Has b)
    (hlt : f.rank (f.root a) < f.rank (f.root b)) {type : String}
    (hpin : f.pin (f.root b) = some type) : (f.union a b).pin ((f.union a b).root a) = some type := by
  obtain ⟨high, low, hroots, hle, hmerged⟩ := h.union ha hb
  rcases hroots with ⟨rfl, rfl⟩ | ⟨rfl, rfl⟩
  · exact absurd hle (UInt8.not_le.mpr hlt)
  · rw [hmerged.root_eq, if_pos rfl, hmerged.pin_high, hpin, Option.some_or]

end Forest

namespace Core

/-- The core when so many slots have been used up. -/
def widened (c : Core) (count : Nat) : Core :=
  { c with groups := { c.groups with forest := c.groups.forest.widened count } }

theorem state_widened (c : Core) (count : Nat) : (c.widened count).state = c.state := rfl

theorem port?_widened (c : Core) (count : Nat) (key : PortKey) :
    (c.widened count).port? key = c.port? key := rfl

theorem slot?_widened (c : Core) (count : Nat) (key : PortKey) :
    (c.widened count).groups.slot? key = c.groups.slot? key := rfl

theorem grow_widened {c : Core} {count n : Nat}
    (h : c.groups.forest.size + count = UInt32.size + n) :
    (c.widened count).groups.forest.grow.1 = Slot.ofIndex n := by
  change Slot.ofIndex (c.groups.forest.widened count).size = Slot.ofIndex n
  rw [Forest.size_widened, h, Slot.ofIndex_size_add]

namespace Sound

variable {c : Core}

theorem found?_widened (h : c.Sound) (count : Nat) (slot : Slot) :
    (c.widened count).groups.found? slot = c.groups.found? slot := by
  change (c.groups.forest.widened count).pin ((c.groups.forest.widened count).root slot) = _
  rw [Forest.pin_widened, (h.groups.rooted.widened count).2]
  rfl

theorem widened (h : c.Sound) (count : Nat) : (c.widened count).Sound where
  groups := {
    rooted := (h.groups.rooted.widened count).1
    has_slot := fun hslot => Forest.has_widened (h.groups.has_slot hslot) count
    has_tag := fun htag => Forest.has_widened (h.groups.has_tag htag) count }
  live := h.live
  shows hport dependent := by
    rcases h.shows hport dependent with hsame | ⟨htype, slot, hslot, hfound⟩
    · exact .inl hsame
    · exact .inr ⟨htype, slot, hslot, (h.found?_widened count slot).symm ▸ hfound⟩

end Sound

/-- A port without a tag that comes and goes leaves nothing behind but a slot. -/
theorem withoutPort_withPort {c : Core} {key : PortKey} {info : PortInfo}
    (new : c.port? key = none) (free : c.groups.slot? key = none) (untagged : info.type.tag? = none) :
    (c.withPort key info c.registry).withoutPort key = c.widened 1 := by
  have hports (port : Port) : (c.ports.insert key port).erase key = c.ports :=
    Lookup.erase_insert new port
  have hslots (slot : Slot) : (c.groups.slots.insert key slot).erase key = c.groups.slots :=
    Lookup.erase_insert free slot
  rw [withPort, visibleType, untagged]
  simp only [Groups.join, withoutPort, Groups.leave, hports, hslots]
  rfl

end Core

/-- A port about which nothing is said but its type. -/
def PortInfo.plain (type : DataType) : PortInfo := ⟨type, .empty, "", .one⟩

theorem World.declare_plain (w : World) {key : PortKey} (early : w.core.state ≠ .initialized)
    (new : w.core.port? key = none) (type : DataType) :
    w.perform (.declare key (.plain type)) =
      (.ok (), { w with core := w.core.withPort key (.plain type) w.core.registry }) := by
  have fitting : flagClash? key.direction (PortInfo.plain type).flags = none := by
    cases key.direction <;> rfl
  have hcore : w.core.declare key (.plain type) =
      (.ok (), w.core.withPort key (.plain type) w.core.registry) :=
    Core.declare_eq early new fitting (if_neg fun static => nomatch static.2.1)
  rw [perform, hcore]
  rfl

namespace Reaction

variable {σ : Type}

/-- Declare an input and remove it again, so many times. -/
def churn (name : String) : Nat → Reaction σ Unit
  | 0 => pure ()
  | count + 1 => do
    request (.declare (.input name) (.plain .any))
    request (.remove (.input name))
    churn name count

/-- Nothing comes of it but that so many slots are used up. -/
theorem run_churn {w : World} {name : String} (early : w.core.state ≠ .initialized)
    (new : w.core.port? (.input name) = none) (free : w.core.groups.slot? (.input name) = none)
    (count : Nat) (memory : σ) :
    Hook.run ((churn name count : Reaction σ Unit) memory) w =
      ((.ok (), memory), { w with core := w.core.widened count }) := by
  induction count generalizing w with
  | zero => rfl
  | succ count ih =>
    let mid := w.core.withPort (.input name) (.plain .any) w.core.registry
    have hname : PortKey.input name ≠ .output Core.heartbeat := fun h =>
      nomatch congrArg PortKey.direction h
    have hmid : (mid.port? (.input name)).isSome = true := by
      rw [Core.port?_withPort, if_pos rfl]
      rfl
    have hcore : mid.remove (.input name) = (.ok (), mid.withoutPort (.input name)) :=
      Core.remove_eq hname early hmid
    have hremove : { w with core := mid }.perform (.remove (.input name)) =
        (.ok (), { w with core := w.core.widened 1 }) := by
      rw [World.perform, hcore, Core.withoutPort_withPort new free rfl]
      rfl
    -- The rest begins in the same world, with one slot less to give out.
    rw [churn, run_bind_ok (run_request (w.declare_plain early new .any) memory),
      run_bind_ok (run_request hremove memory)]
    exact ih early new free

/-- Use up so many slots, and declare a port then. -/
def crowd (count : Nat) (key : PortKey) (type : DataType) : Reaction σ Unit := do
  churn "passing" count
  request (.declare key (.plain type))

theorem run_crowd {w : World} {key : PortKey} (early : w.core.state ≠ .initialized)
    (hpassing : w.core.port? (.input "passing") = none)
    (hfree : w.core.groups.slot? (.input "passing") = none) (new : w.core.port? key = none)
    (count : Nat) (type : DataType) (memory : σ) :
    Hook.run ((crowd count key type : Reaction σ Unit) memory) w =
      ((.ok (), memory),
        { w with core := (w.core.widened count).withPort key (.plain type) w.core.registry }) := by
  have hchurn := run_churn early hpassing hfree count memory
  let wide : World := { w with core := w.core.widened count }
  have hdeclare : wide.perform (.declare key (.plain type)) =
      (.ok (), { wide with core := wide.core.withPort key (.plain type) wide.core.registry }) :=
    wide.declare_plain early new type
  rw [crowd, run_bind_ok hchurn]
  exact run_request hdeclare memory

end Reaction

/-! ## Ports that share a slot -/

/-- If the next slot is that of a class with a type and with a higher rank than the class of a tag, a
new port with the tag brings this type to its tag. -/
theorem Groups.Sound.join_higher {g : Groups} (h : g.Sound) (ranked : g.forest.Ranked) {tag : String}
    {first : Slot} (htag : g.tags[tag]? = some first)
    (hlt : g.forest.rank (g.forest.root first) < g.forest.rank (g.forest.root g.forest.grow.1))
    {type : String} (hfound : g.found? g.forest.grow.1 = some type) (key : PortKey) :
    (g.join key (some tag)).2.tags[tag]? = some first ∧
      (g.join key (some tag)).2.found? first = some type := by
  have hwide := ranked.widened 1
  have hroot := (ranked.rooted.widened 1).2
  have hrank := g.forest.rank_widened 1
  have hpin := g.forest.pin_widened 1
  have hjoin : (g.join key (some tag)).2 = { g.entered key with
      forest := g.forest.grow.2.union first g.forest.grow.1 } := by
    simp only [Groups.join, htag]
    rfl
  rw [hjoin]
  refine ⟨htag, ?_⟩
  -- The slot is joined with that of the tag, and the higher rank decides whose type stays.
  refine hwide.pin_union (Forest.has_grow_of_has (h.has_tag htag)) (Forest.has_grow _) ?_ ?_
  · rwa [hroot, hroot, hrank, hrank]
  · rwa [hroot, hpin]

namespace Core.Sound

variable {c : Core}

/-- When a type is found for a port, all ports show it whose slots are in the class. -/
theorem port?_settle (h : c.Sound) {key other : PortKey} {slot slot' : Slot}
    (hslot : c.groups.slot? key = some slot) (hfound : c.groups.found? slot = none)
    (hother : c.groups.slot? other = some slot')
    (hroot : c.groups.forest.root slot' = c.groups.forest.root slot) (type : String) :
    (c.settle key type).2.port? other =
      (c.port? other).map fun port => { port with info := { port.info with type := .concrete type } } := by
  have hmember : other ∈ (c.groups.members key).1 :=
    (h.groups.mem_members hslot).mpr ⟨slot', hother, hroot⟩
  have hsettled := h.groups.settle_fst hslot hfound type
  rw [settle_core]
  -- Only the answer of the groups matters: all members of the class get the type.
  generalize c.groups.settle key type = settled at hsettled ⊢
  obtain ⟨settlement, groups⟩ := settled
  obtain rfl : settlement = _ := hsettled
  exact (port?_retypeAll _ _ _ _).trans (if_pos hmember)

theorem settle_fst (h : c.Sound) {key : PortKey} {slot : Slot}
    (hslot : c.groups.slot? key = some slot) (hfound : c.groups.found? slot = none) (type : String) :
    (c.settle key type).1 = true := by
  have hsettled := h.groups.settle_fst hslot hfound type
  rw [settle]
  generalize c.groups.settle key type = settled at hsettled ⊢
  obtain ⟨settlement, groups⟩ := settled
  obtain rfl : settlement = _ := hsettled
  rfl

theorem resolve_open (h : c.Sound) {key : PortKey} {port : Port} {slot : Slot}
    (early : c.state ≠ .initialized) (declared : c.port? key = some port) (opened : port.Open)
    (hslot : c.groups.slot? key = some slot) (hfound : c.groups.found? slot = none) (type : String) :
    c.resolve key (.concrete type) = (.ok true, (c.settle key type).2) := by
  have hresolved := c.resolved key (.concrete type)
  have hcheck : c.checkProposal key (.concrete type) = .ok () := check_of_open early declared opened
  generalize c.resolve key (.concrete type) = attempt at hresolved ⊢
  cases hresolved with
  | refused refused => exact nomatch refused.symm.trans hcheck
  | @answered port' _ declared' closed =>
    obtain rfl := Option.some.inj (declared.symm.trans declared')
    exact absurd opened (closed type rfl)
  | settled _ _ concrete _ =>
    obtain rfl := DataType.concrete.inj concrete
    rw [h.settle_fst hslot hfound]

/-- When the slots come round to that of a port whose class has found no type, a new port with a type
of its own to find finds it together with the other one. -/
theorem found_together (h : c.Sound) (early : c.state ≠ .initialized) {key other : PortKey}
    {info : PortInfo} {port : Port} (new : c.port? key = none) (free : info.type = .dataDependent)
    (declared : c.port? other = some port) (hslot : c.groups.slot? other = some c.groups.forest.grow.1)
    (hfound : c.groups.found? c.groups.forest.grow.1 = none) (type : String) :
    ∃ after, (c.withPort key info c.registry).resolve key (.concrete type) = (.ok true, after) ∧
      after.port? other = some { port with info := { port.info with type := .concrete type } } := by
  have hne : other ≠ key := by
    rintro rfl
    exact nomatch new.symm.trans declared
  have hsound := h.declared key info c.registry
  have hgroups : (c.withPort key info c.registry).groups = c.groups.entered key := by
    rw [withPort, visibleType, free]
    rfl
  -- Both ports have one slot now, and it is still open.
  have hkey : (c.withPort key info c.registry).groups.slot? key = some c.groups.forest.grow.1 := by
    rw [hgroups, Groups.slot?_entered, if_pos rfl]
  have hother : (c.withPort key info c.registry).groups.slot? other = some c.groups.forest.grow.1 := by
    rw [hgroups, Groups.slot?_entered, if_neg hne, hslot]
  have hopen : (c.withPort key info c.registry).groups.found? c.groups.forest.grow.1 = none := by
    rw [hgroups, h.groups.found?_entered, hfound]
  have hport := c.port?_withPort key info c.registry key
  rw [if_pos rfl, visibleType, free] at hport
  refine ⟨_, hsound.resolve_open early hport ⟨rfl, rfl⟩ hkey hopen type, ?_⟩
  rw [hsound.port?_settle hkey hopen hother rfl, port?_withPort, if_neg hne, declared]
  rfl

/-- When the slots come round to a class of higher rank that has found a type, a new port with a tag
takes its tag along into that class, whatever the tag has found itself. -/
theorem carried_along (h : c.Sound) (ranked : c.groups.forest.Ranked) {tag : String} {first : Slot}
    (htag : c.groups.tags[tag]? = some first)
    (hlt : c.groups.forest.rank (c.groups.forest.root first) <
      c.groups.forest.rank (c.groups.forest.root c.groups.forest.grow.1)) {type : String}
    (hfound : c.groups.found? c.groups.forest.grow.1 = some type) (key : PortKey) {info : PortInfo}
    (hinfo : info.type.tag? = some tag) (registry : Registry) :
    ((c.withPort key info registry).port? key).map Port.types = some (info.type, .concrete type) := by
  obtain ⟨htags, hjoined⟩ := h.groups.join_higher ranked htag hlt hfound key
  -- The tag is asked for its type as soon as the port has joined.
  have hread := ((h.groups.join key (some tag)).sound.pinOfTag tag).1
  rw [htags, Option.bind_some, hjoined] at hread
  rw [port?_withPort, if_pos rfl, hinfo, visibleType, hinfo]
  dsimp only
  generalize (c.groups.join key (some tag)).2.pinOfTag tag = read at hread ⊢
  obtain ⟨found, after⟩ := read
  obtain rfl : found = some type := hread
  rfl

end Core.Sound

/-! ## A process that comes to the slot of its heartbeat -/

namespace Process

variable {σ : Type}

theorem Reached.sound {p : Process σ} (h : p.Reached) : p.core.Sound := by
  obtain ⟨config, memory, edges, commands, w, hw, hcore⟩ := h.in_life
  obtain ⟨i, hi⟩ := List.getElem?_of_mem hw
  exact hcore ▸ sound_of_life hi

theorem react_of_run {α : Type} (p : Process σ) (edges : Edges) {hook : Reaction σ α}
    {result : Except ProcessError α} {memory : σ} {w : World}
    (h : Hook.run (hook p.memory) (p.world edges) = ((result, memory), w)) :
    p.react edges hook = (result, { p with core := w.core, memory }, w.edges) := by
  rw [react, h]
  rfl

/-- A plugin that uses up so many slots before it declares its output. -/
def crowding (count : Nat) : Plugin Unit :=
  { Plugin.idle Unit with declare := Reaction.crowd count (.output "out") .dataDependent }

def crowdedCore (count : Nat) : Core :=
  ((Core.ofConfig ∅).widened count).withPort (.output "out") (.plain .dataDependent)
    (Core.ofConfig ∅).registry

theorem ofConfig_empty :
    (Core.ofConfig ∅).state ≠ .initialized ∧ (Core.ofConfig ∅).groups.forest.size = 1 ∧
      (Core.ofConfig ∅).port? (.output Core.heartbeat) =
        some ⟨.none, Core.heartbeatInfo, [], .first⟩ ∧
      (Core.ofConfig ∅).groups.slot? (.output Core.heartbeat) = some (Slot.ofIndex 0) ∧
      (Core.ofConfig ∅).groups.found? (Slot.ofIndex 0) = none ∧
      (Core.ofConfig ∅).port? (.output "out") = none ∧
      (Core.ofConfig ∅).port? (.input "passing") = none ∧
      (Core.ofConfig ∅).groups.slot? (.input "passing") = none := by
  decide +kernel

theorem create_crowding (count : Nat) :
    create ∅ (crowding count) () .empty =
      (.ok (), ⟨crowdedCore count, crowding count, ()⟩, .empty) := by
  obtain ⟨early, -, -, -, -, new, hpassing, hfree⟩ := ofConfig_empty
  let w : World := ⟨.ofConfig ∅, .empty⟩
  have hrun : Hook.run ((crowding count).declare ()) w =
      ((.ok (), ()), { w with core := crowdedCore count }) :=
    Reaction.run_crowd early hpassing hfree new count .dataDependent ()
  exact react_of_run ⟨.ofConfig ∅, crowding count, ()⟩ .empty hrun

def newCrowd (count : Nat) : Process Unit := (create ∅ (crowding count) () .empty).2.1

theorem newCrowd_eq (count : Nat) : newCrowd count = ⟨crowdedCore count, crowding count, ()⟩ := by
  rw [newCrowd, create_crowding]

theorem newCrowd_reached (count : Nat) : (newCrowd count).Reached := by
  rw [newCrowd_eq]
  refine ⟨∅, (), .empty, [], ?_, ?_⟩
  · rw [create_crowding]
  · rw [create_crowding, follow]

theorem newCrowd_early (count : Nat) : (newCrowd count).core.state ≠ .initialized := by
  rw [newCrowd_eq]
  exact ofConfig_empty.1

theorem newCrowd_ports (count : Nat) :
    (newCrowd count).core.port? (.output "out") =
        some ⟨.dataDependent, .plain .dataDependent, [], .first⟩ ∧
      (newCrowd count).core.port? (.output Core.heartbeat) =
        some ⟨.none, Core.heartbeatInfo, [], .first⟩ := by
  obtain ⟨-, -, hheartbeat, -⟩ := ofConfig_empty
  rw [newCrowd_eq]
  dsimp only
  rw [crowdedCore, Core.port?_withPort, Core.port?_withPort, if_pos rfl, if_neg (by decide)]
  exact ⟨rfl, hheartbeat⟩

/-- When the next slot is that of the heartbeat, the output gets it, and the heartbeat finds a type
with the output. -/
theorem newCrowd_resolve {count : Nat} (full : 1 + count = UInt32.size) (type : String) :
    ∃ after, (newCrowd count).core.resolve (.output "out") (.concrete type) = (.ok true, after) ∧
      after.port? (.output Core.heartbeat) =
        some ⟨.none, { Core.heartbeatInfo with type := .concrete type }, [], .first⟩ := by
  obtain ⟨early, hsize, hport, hslot, hfound, new, -, -⟩ := ofConfig_empty
  have sound := Core.Sound.ofConfig ∅
  have hgrow : ((Core.ofConfig ∅).widened count).groups.forest.grow.1 = Slot.ofIndex 0 :=
    Core.grow_widened (by rw [hsize, full])
  -- All this holds as well when the slots are used up.
  rw [← Core.state_widened _ count] at early
  rw [← Core.port?_widened _ count] at new hport
  rw [← Core.slot?_widened _ count, ← hgrow] at hslot
  rw [← sound.found?_widened count, ← hgrow] at hfound
  rw [newCrowd_eq]
  exact (sound.widened count).found_together early new rfl hport hslot hfound type

/-- The process when all slots are used up. -/
def crowded : Process Unit := newCrowd (UInt32.size - 1)

end Process

end Dataflow
