import Dataflow.Process.Snapshot
import Dataflow.Proofs.Process.Life

/-!
# What snapshots show

A snapshot lists names and looks every one of them up, and leaves out what is not found. Nothing is
ever left out, since the names come from where they are looked up: the ports and the keys of a
snapshot are those that are declared, each once and in the order of their names. A process goes on
after a snapshot as if none had been taken.
-/

namespace Dataflow

/-! ## Lists of what is shown under names -/

/-- Whether entries are in the order of their names, and are all that is shown under any name. -/
structure Listing {β : Type} (nameOf : β → String) (shown : String → Option β) (entries : List β) :
    Prop where
  ordered : entries.Pairwise fun one other => nameOf one < nameOf other
  mem_iff : ∀ entry, entry ∈ entries ↔ shown (nameOf entry) = some entry

namespace Listing

variable {β : Type} {nameOf : β → String} {shown : String → Option β} {entries : List β}

/-- A name finds the entry that is shown under it. -/
theorem find?_eq (h : Listing nameOf shown entries)
    (named : ∀ name entry, shown name = some entry → nameOf entry = name) (name : String) :
    entries.find? (fun entry => nameOf entry = name) = shown name := by
  cases hfind : entries.find? (fun entry => nameOf entry = name) with
  | none =>
    cases hshown : shown name with
    | none => rfl
    | some entry =>
      have hname := named name entry hshown
      have hentry : entry ∈ entries := (h.mem_iff entry).mpr (hname ▸ hshown)
      exact absurd (decide_eq_true hname) (List.find?_eq_none.mp hfind entry hentry)
  | some entry =>
    have hname := List.find?_some hfind
    have hshown := (h.mem_iff entry).mp (List.mem_of_find?_eq_some hfind)
    rw [of_decide_eq_true hname] at hshown
    exact hshown.symm

/-- If there is something to show under all names, none of them is left out. -/
theorem of_filterMap {names : List String} (ordered : names.Pairwise (· < ·))
    (named : ∀ name entry, shown name = some entry → nameOf entry = name)
    (mem_iff : ∀ name, name ∈ names ↔ (shown name).isSome = true) :
    Listing nameOf shown (names.filterMap shown) ∧ (names.filterMap shown).map nameOf = names := by
  have hnames : (names.filterMap shown).map nameOf = names := by
    have hshown : ∀ name ∈ names, (shown name).map nameOf = some name := by
      intro name hname
      obtain ⟨entry, hentry⟩ := Option.isSome_iff_exists.mp ((mem_iff name).mp hname)
      rw [hentry, Option.map_some, named name entry hentry]
    rw [List.map_filterMap, List.filterMap_congr hshown, List.filterMap_some]
  refine ⟨⟨?_, fun entry => ?_⟩, hnames⟩
  · rw [← List.pairwise_map, hnames]
    exact ordered
  · rw [List.mem_filterMap]
    constructor
    · rintro ⟨name, -, hentry⟩
      rwa [named name entry hentry]
    · intro hentry
      exact ⟨nameOf entry, (mem_iff _).mpr (hentry ▸ rfl), hentry⟩

end Listing

/-! ## What a snapshot should show -/

namespace Core

/-- What a snapshot should show of a port. -/
def shown? (c : Core) (direction : Direction) (name : String) : Option PortSnapshot :=
  (c.port? ⟨direction, name⟩).map fun port => ⟨name, port.info, port.edges.length⟩

theorem name_of_shown? {c : Core} {direction : Direction} (name : String) (entry : PortSnapshot)
    (h : c.shown? direction name = some entry) : entry.name = name := by
  obtain ⟨port, -, rfl⟩ := Option.map_eq_some_iff.mp h
  rfl

theorem shown?_eq_some {c : Core} {direction : Direction} {entry : PortSnapshot} :
    c.shown? direction entry.name = some entry ↔
      ∃ port, c.port? ⟨direction, entry.name⟩ = some port ∧ entry.info = port.info ∧
        entry.edges = port.edges.length := by
  rw [shown?, Option.map_eq_some_iff]
  refine exists_congr fun port => and_congr_right fun _ => ?_
  obtain ⟨name, info, edges⟩ := entry
  rw [PortSnapshot.mk.injEq, and_iff_right rfl, eq_comm, @eq_comm _ _ edges]

theorem mem_portNames_iff_shown? {c : Core} {direction : Direction} (name : String) :
    name ∈ c.portNames direction ↔ (c.shown? direction name).isSome = true := by
  rw [mem_portNames, shown?, Option.isSome_map, Option.isSome_iff_exists]

end Core

namespace Registry

/-- The keys come in their order. -/
theorem pairwise_available (r : Registry) : r.available.Pairwise (· < ·) :=
  r.infos.ordered_keys.imp compareOfLessAndEq_eq_lt.mp

/-- What a snapshot should show of a key. -/
def shown? (r : Registry) (key : String) : Option KeySnapshot :=
  (r.infos[key]?).map fun info => ⟨key, (r.values.get? key).getD info.default, info⟩

theorem key_of_shown? {r : Registry} (key : String) (entry : KeySnapshot)
    (h : r.shown? key = some entry) : entry.key = key := by
  obtain ⟨info, -, rfl⟩ := Option.map_eq_some_iff.mp h
  rfl

theorem shown?_eq_some {r : Registry} {entry : KeySnapshot} :
    r.shown? entry.key = some entry ↔
      r.info entry.key = .ok entry.info ∧ r.raw entry.key = .ok entry.value := by
  obtain ⟨key, value, info⟩ := entry
  rw [shown?, Registry.info, Registry.raw]
  cases r.infos[key]? with
  | none => simp only [Option.map_none, reduceCtorEq, false_and]
  | some found =>
    simp only [Option.map_some, Option.some.injEq, KeySnapshot.mk.injEq, true_and, Except.ok.injEq]
    exact and_comm

theorem mem_available_iff_shown? {r : Registry} (key : String) :
    key ∈ r.available ↔ (r.shown? key).isSome = true := by
  rw [available, Std.ExtTreeMap.mem_keys, Std.ExtTreeMap.mem_iff_isSome_getElem?, shown?,
    Option.isSome_map]

end Registry

namespace Snapshot

variable {σ : Type}

theorem portsOf_eq (c : Core) (direction : Direction) :
    portsOf c direction = (c.portNames direction).filterMap (c.shown? direction) := by
  refine List.filterMap_congr fun name _ => ?_
  rw [Core.info, Core.edgeCount, Core.shown?]
  cases c.port? ⟨direction, name⟩ <;> rfl

theorem keysOf_eq (r : Registry) : keysOf r = r.available.filterMap r.shown? := by
  refine List.filterMap_congr fun key _ => ?_
  rw [Registry.info, Registry.raw, Registry.shown?]
  cases r.infos[key]? <;> rfl

theorem listing_portsOf (c : Core) (direction : Direction) :
    Listing PortSnapshot.name (c.shown? direction) (portsOf c direction) ∧
      (portsOf c direction).map PortSnapshot.name = c.portNames direction := by
  rw [portsOf_eq]
  exact Listing.of_filterMap (c.pairwise_portNames direction) Core.name_of_shown?
    Core.mem_portNames_iff_shown?

theorem listing_keysOf (r : Registry) :
    Listing KeySnapshot.key r.shown? (keysOf r) ∧ (keysOf r).map KeySnapshot.key = r.available := by
  rw [keysOf_eq]
  exact Listing.of_filterMap r.pairwise_available Registry.key_of_shown? Registry.mem_available_iff_shown?

/-- The ports of a direction. -/
def ports (s : Snapshot) : Direction → List PortSnapshot
  | .input => s.inputs
  | .output => s.outputs

/-- The port of a direction with a name. -/
def port? (s : Snapshot) : Direction → String → Option PortSnapshot
  | .input => s.input?
  | .output => s.output?

/-- Whether a snapshot shows a process as it stands. -/
structure Faithful (s : Snapshot) (p : Process σ) : Prop where
  name_eq : s.name = p.core.name
  typeName_eq : s.typeName = p.core.typeName
  state_eq : s.state = p.core.state
  complete_eq : s.complete = p.core.complete
  level_eq : s.level = p.core.level
  properties_ordered : s.properties.Sublist Property.all
  mem_properties : ∀ property, property ∈ s.properties ↔
    (p.plugin.properties p.memory).contains property = true ∨
      property = .unsyncInput ∧ p.core.level = .none
  ports_ordered : ∀ direction, (s.ports direction).Pairwise fun one other => one.name < other.name
  mem_ports : ∀ direction entry, entry ∈ s.ports direction ↔
    ∃ port, p.core.port? ⟨direction, entry.name⟩ = some port ∧ entry.info = port.info ∧
      entry.edges = port.edges.length
  /-- No declared port is left out. -/
  port_names : ∀ direction, (s.ports direction).map PortSnapshot.name = p.core.portNames direction
  port?_eq_some : ∀ direction name entry, s.port? direction name = some entry ↔
    entry ∈ s.ports direction ∧ entry.name = name
  isSome_port? : ∀ direction name,
    (s.port? direction name).isSome = (p.core.port? ⟨direction, name⟩).isSome
  keys_ordered : s.keys.Pairwise fun one other => one.key < other.key
  mem_keys : ∀ entry, entry ∈ s.keys ↔
    p.core.registry.info entry.key = .ok entry.info ∧ p.core.registry.raw entry.key = .ok entry.value
  /-- No declared key is left out. -/
  key_names : s.keys.map KeySnapshot.key = p.core.registry.available

theorem ports_snapshot (p : Process σ) (direction : Direction) :
    p.snapshot.ports direction = portsOf p.core direction := by
  cases direction <;> rfl

theorem port?_snapshot (p : Process σ) (direction : Direction) (name : String) :
    p.snapshot.port? direction name = p.core.shown? direction name := by
  have hfound := (listing_portsOf p.core direction).1.find?_eq Core.name_of_shown? name
  cases direction <;> exact hfound

theorem mem_properties_snapshot (p : Process σ) (property : Property) :
    property ∈ p.snapshot.properties ↔
      (p.plugin.properties p.memory).contains property = true ∨
        property = .unsyncInput ∧ p.core.level = .none := by
  change property ∈ p.properties.toList ↔ _
  have hall : property ∈ Property.all := by cases property <;> decide
  rw [Properties.toList, List.mem_filter, and_iff_right hall, Process.properties]
  by_cases hlevel : p.core.level = .none
  · rw [if_pos hlevel, Properties.contains_insert, Bool.or_eq_true, decide_eq_true_eq,
      and_iff_left hlevel]
    exact or_comm.trans (or_congr_right eq_comm)
  · rw [if_neg hlevel]
    exact (or_iff_left fun h => hlevel h.2).symm

theorem faithful (p : Process σ) : p.snapshot.Faithful p where
  name_eq := rfl
  typeName_eq := rfl
  state_eq := rfl
  complete_eq := rfl
  level_eq := rfl
  properties_ordered := List.filter_sublist
  mem_properties := mem_properties_snapshot p
  ports_ordered direction := by
    rw [ports_snapshot]
    exact (listing_portsOf p.core direction).1.ordered
  mem_ports direction entry := by
    rw [ports_snapshot, (listing_portsOf p.core direction).1.mem_iff, Core.shown?_eq_some]
  port_names direction := by
    rw [ports_snapshot]
    exact (listing_portsOf p.core direction).2
  port?_eq_some direction name entry := by
    rw [port?_snapshot, ports_snapshot, (listing_portsOf p.core direction).1.mem_iff]
    constructor
    · intro h
      obtain rfl := Core.name_of_shown? name entry h
      exact ⟨h, rfl⟩
    · rintro ⟨h, rfl⟩
      exact h
  isSome_port? direction name := by
    rw [port?_snapshot, Core.shown?, Option.isSome_map]
  keys_ordered := (listing_keysOf p.core.registry).1.ordered
  mem_keys entry := ((listing_keysOf p.core.registry).1.mem_iff entry).trans Registry.shown?_eq_some
  key_names := (listing_keysOf p.core.registry).2

end Snapshot

namespace Process

variable {σ : Type}

/-! ## Snapshots in the course of a run -/

/-- What happens to a process: it is given a command, or a snapshot of it is taken. -/
inductive Occasion where
  | command (edges : Edges) (given : Command)
  | snapshot

/-- The command of an occasion, unless it is a snapshot. -/
def Occasion.command? : Occasion → Option (Edges × Command)
  | command edges given => some (edges, given)
  | snapshot => none

/-- The commands among some occasions. -/
def commandsOf (occasions : List Occasion) : List (Edges × Command) :=
  occasions.filterMap Occasion.command?

/-- The snapshots that are taken of a process, and the process after the last occasion. -/
def album (p : Process σ) : List Occasion → List Snapshot × Process σ
  | [] => ([], p)
  | .command edges given :: rest => (p.perform edges given).2.1.album rest
  | .snapshot :: rest => (p.snapshot :: (p.album rest).1, (p.album rest).2)

theorem album_snd (p : Process σ) (occasions : List Occasion) :
    (p.album occasions).2 = p.follow (commandsOf occasions) := by
  induction occasions generalizing p with
  | nil => rfl
  | cons occasion rest ih =>
    cases occasion with
    | command edges given => exact ih _
    | snapshot => exact ih p

theorem album_append (p : Process σ) (before after : List Occasion) :
    (p.album (before ++ after)).1 =
      (p.album before).1 ++ ((p.follow (commandsOf before)).album after).1 := by
  induction before generalizing p with
  | nil => rfl
  | cons occasion rest ih =>
    cases occasion with
    | command edges given => exact ih _
    | snapshot => exact congrArg (p.snapshot :: ·) (ih p)

/-- A snapshot shows the process as it stands, however it came about: its names, its state, its mark
and its level; its properties, among which is that its inputs need not be in sync just if the plugin
says so or nothing is checked; every declared port once, in the order of the names, with what is known
of it and the number of its edges; and every declared key once, in the order of the keys, with its text
and its declaration. No name is left out, and what is asked for by its name is found just if it is
declared. Taking a snapshot in the course of a run changes nothing: it shows the process as the
commands before it left it, and the other snapshots and the process in the end are those of the run
without it. -/
theorem snapshot_faithful (p : Process σ) :
    p.snapshot.Faithful p ∧
      ∀ before after,
        (p.album (before ++ .snapshot :: after)).1 = (p.album before).1 ++
          (p.follow (commandsOf before)).snapshot :: ((p.follow (commandsOf before)).album after).1 ∧
        (p.album (before ++ after)).1 =
          (p.album before).1 ++ ((p.follow (commandsOf before)).album after).1 ∧
        (p.album (before ++ .snapshot :: after)).2 = p.follow (commandsOf (before ++ after)) := by
  refine ⟨Snapshot.faithful p, fun before after => ⟨?_, p.album_append before after, ?_⟩⟩
  · rw [album_append]
    rfl
  · rw [album_snd, commandsOf, commandsOf, List.filterMap_append, List.filterMap_append]
    rfl

end Process

end Dataflow
