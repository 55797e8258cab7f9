import Dataflow.Core.World
import Dataflow.Proofs.Lookup

/-!
# What sending and draining leave behind

A push goes to the end of every edge that is bound to the output, once for every binding, and moves
the stamp on. A drain takes from the head. Both are told here by what they do to every port and to
every queue, so that whole rounds of them add up.
-/

namespace Dataflow

namespace Edges

@[simp] theorem queue_pushAll (edges : Edges) (ids : List EdgeId) (token : Stamped) (id : EdgeId) :
    (edges.pushAll ids token).queue id =
      edges.queue id ++ List.replicate (ids.count id) token := by
  induction ids generalizing edges with
  | nil => rw [List.count_nil, List.replicate_zero, List.append_nil]; rfl
  | cons first rest ih =>
    change ((edges.push first token).pushAll rest token).queue id = _
    rw [ih]
    by_cases h : id = first
    · subst h
      rw [queue_push_self, List.count_cons_self, List.replicate_succ, List.append_assoc,
        List.singleton_append]
    · rw [queue_push_of_ne edges token h, List.count_cons_of_ne (Ne.symm h)]

@[simp] theorem fresh_pushAll (edges : Edges) (ids : List EdgeId) (token : Stamped) :
    (edges.pushAll ids token).fresh = edges.fresh := by
  induction ids generalizing edges with
  | nil => rfl
  | cons first rest ih => exact ih (edges.push first token)

theorem queue_drop (edges : Edges) (id : EdgeId) (count : Nat) (other : EdgeId) :
    (edges.drop id count).queue other =
      (edges.queue other).drop (if other = id then count else 0) := by
  rw [drop]
  by_cases h : other = id
  · rw [if_pos h, h, queue_setQueue_self]
  · rw [if_neg h, queue_setQueue_of_ne edges _ h, List.drop_zero]

end Edges

theorem PortKey.compare_mk (direction : Direction) (name name' : String) :
    compare (⟨direction, name⟩ : PortKey) ⟨direction, name'⟩ = compare name name' := by
  cases direction <;> rfl

namespace Core

theorem port?_modifyPort (c : Core) (key : PortKey) (change : Port → Port) (other : PortKey) :
    (c.modifyPort key change).port? other =
      if other = key then (c.port? other).map change else c.port? other :=
  Lookup.getElem?_modify c.ports key change other

/-- Cores that agree in all but the ports are equal if all look-ups agree. -/
theorem eq_of_port? {c other : Core} (rest : { c with ports := other.ports } = other)
    (h : ∀ key, c.port? key = other.port? key) : c = other := by
  have hports : c.ports = other.ports := Std.ExtTreeMap.ext_getElem? h
  rw [← rest, ← hports]

theorem mem_ports {c : Core} {key : PortKey} {port : Port} (h : c.port? key = some port) :
    (key, port) ∈ c.ports.toList :=
  Std.ExtTreeMap.mem_toList_iff_getElem?_eq_some.mpr h

theorem mem_portNames {c : Core} {direction : Direction} {name : String} :
    name ∈ c.portNames direction ↔ ∃ port, c.port? ⟨direction, name⟩ = some port := by
  simp only [portNames, List.mem_filterMap, Std.ExtTreeMap.mem_keys, port?]
  constructor
  · rintro ⟨key, hkey, hname⟩
    split at hname
    · rename_i hdirection
      rw [← Option.some.inj hname, ← hdirection]
      exact ⟨c.ports[key], Std.ExtTreeMap.getElem?_eq_some_getElem hkey⟩
    · exact nomatch hname
  · rintro ⟨port, hport⟩
    exact ⟨⟨direction, name⟩, Std.ExtTreeMap.mem_iff_isSome_getElem?.mpr (by rw [hport]; rfl),
      if_pos rfl⟩

/-- The names of the ports of a direction are in their order. -/
theorem pairwise_portNames (c : Core) (direction : Direction) :
    (c.portNames direction).Pairwise (· < ·) := by
  rw [portNames]
  refine c.ports.ordered_keys.filterMap _ ?_
  rintro ⟨own, name⟩ ⟨other, name'⟩ hlt found hfound found' hfound'
  dsimp only at hfound hfound'
  split at hfound <;> split at hfound' <;> try contradiction
  rename_i hown hother
  rw [hown, hother, PortKey.compare_mk] at hlt
  rw [← Option.some.inj hfound, ← Option.some.inj hfound']
  exact compareOfLessAndEq_eq_lt.mp hlt

theorem nodup_portNames (c : Core) (direction : Direction) : (c.portNames direction).Nodup := by
  refine (c.pairwise_portNames direction).imp ?_
  rintro name _ hlt rfl
  exact String.lt_irrefl name hlt

/-- The stamps of some outputs moved on by one. -/
def advance (c : Core) (which : String → Bool) : Core :=
  { c with
    ports := c.ports.map fun key port =>
      if key.direction = .output ∧ which key.name = true then { port with stamp := port.stamp.next }
      else port }

theorem port?_advance (c : Core) (which : String → Bool) (key : PortKey) :
    (c.advance which).port? key = (c.port? key).map fun port =>
      if key.direction = .output ∧ which key.name = true then { port with stamp := port.stamp.next }
      else port :=
  Std.ExtTreeMap.getElem?_map

/-- What a change of a port does not touch, no look-up tells apart. -/
theorem view_modifyPort {β : Type} {view : Port → β} {change : Port → Port}
    (h : ∀ port, view (change port) = view port) (c : Core) (key other : PortKey) :
    ((c.modifyPort key change).port? other).map view = (c.port? other).map view := by
  rw [port?_modifyPort]
  split
  · rw [Option.map_map]
    exact congrArg (Option.map · _) (funext h)
  · rfl

theorem view_advance {β : Type} {view : Port → β} (h : ∀ port stamp, view { port with stamp } = view port)
    (c : Core) (which : String → Bool) (key : PortKey) :
    ((c.advance which).port? key).map view = (c.port? key).map view := by
  rw [port?_advance, Option.map_map]
  congr 1
  funext port
  rw [Function.comp_apply]
  split
  · exact h port _
  · rfl

/-- What one push of an output puts on an edge. -/
def sent (c : Core) (datum : Datum) (id : EdgeId) (name : String) : List Stamped :=
  match c.port? (.output name) with
  | none => []
  | some port => List.replicate (port.edges.count id) ⟨port.stamp, datum⟩

theorem sent_advance {c : Core} {which : String → Bool} {datum : Datum} {id : EdgeId} {name : String}
    (h : which name = false) : (c.advance which).sent datum id name = c.sent datum id name := by
  rw [sent, sent, port?_advance]
  cases c.port? (.output name) with
  | none => rfl
  | some port =>
    rw [Option.map_some, if_neg]
    rintro ⟨-, hwhich⟩
    exact absurd (h.symm.trans hwhich) Bool.false_ne_true

theorem sent_of_free {c : Core} {name : String} {edge : EdgeId}
    (h : ∀ port, c.port? (.output name) = some port → edge ∉ port.edges) (datum : Datum) :
    c.sent datum edge name = [] := by
  rw [sent]
  cases hport : c.port? (.output name) with
  | none => rfl
  | some port =>
    dsimp only
    rw [List.count_eq_zero_of_not_mem (h port hport), List.replicate_zero]

end Core

namespace World

/-! ## One push -/

theorem push_core (w : World) (name : String) (datum : Datum) :
    (w.push name datum).2.core = w.core.advance (· = name) := by
  have hname (key : PortKey) :
      (key.direction = .output ∧ decide (key.name = name) = true) = (key = .output name) := by
    rw [PortKey.mk.injEq, decide_eq_true_eq]
  rw [push]
  cases hport : w.core.port? (.output name) with
  | none =>
    -- An output that is not declared has no stamp to move.
    apply Core.eq_of_port? rfl
    intro key
    rw [Core.port?_advance]
    simp only [hname]
    by_cases hkey : key = .output name
    · rw [hkey, hport, Option.map_none]
    · simp only [if_neg hkey, Option.map_id_fun', id]
  | some port =>
    apply Core.eq_of_port? rfl
    intro key
    rw [Core.port?_advance]
    simp only [hname, Core.port?_modifyPort]
    split
    · rfl
    · exact (Option.map_id_fun' ▸ rfl)

theorem push_queue (w : World) (name : String) (datum : Datum) (id : EdgeId) :
    (w.push name datum).2.edges.queue id = w.edges.queue id ++ w.core.sent datum id name := by
  rw [push, Core.sent]
  cases w.core.port? (.output name) with
  | none => exact (List.append_nil _).symm
  | some port => exact Edges.queue_pushAll _ _ _ _

theorem push_fresh (w : World) (name : String) (datum : Datum) :
    (w.push name datum).2.edges.fresh = w.edges.fresh := by
  rw [push]
  cases w.core.port? (.output name) with
  | none => rfl
  | some port => exact Edges.fresh_pushAll _ _ _

/-! ## A push from each of several outputs -/

/-- Send a datum from each of some outputs. -/
def pushEach (w : World) (names : List String) (datum : Datum) : World :=
  names.foldl (fun w name => (w.push name datum).2) w

theorem pushEach_core (w : World) {names : List String} (nodup : names.Nodup) (datum : Datum) :
    (w.pushEach names datum).core = w.core.advance (names.contains ·) := by
  induction names generalizing w with
  | nil =>
    apply Core.eq_of_port? rfl
    intro key
    rw [Core.port?_advance]
    simp [pushEach]
  | cons name rest ih =>
    obtain ⟨hnot, hrest⟩ := List.nodup_cons.mp nodup
    change ((w.push name datum).2.pushEach rest datum).core = _
    rw [ih _ hrest, push_core]
    apply Core.eq_of_port? rfl
    intro key
    rw [Core.port?_advance, Core.port?_advance, Core.port?_advance, Option.map_map]
    congr 1
    funext port
    -- No output comes twice, so none is moved on twice.
    by_cases hkey : key.name = name
    · simp [hkey, hnot]
    · simp [hkey]

theorem pushEach_queue (w : World) {names : List String} (nodup : names.Nodup) (datum : Datum)
    (id : EdgeId) :
    (w.pushEach names datum).edges.queue id =
      w.edges.queue id ++ names.flatMap (w.core.sent datum id) := by
  induction names generalizing w with
  | nil => rw [List.flatMap_nil, List.append_nil]; rfl
  | cons name rest ih =>
    obtain ⟨hnot, hrest⟩ := List.nodup_cons.mp nodup
    change ((w.push name datum).2.pushEach rest datum).edges.queue id = _
    rw [ih _ hrest, push_queue, push_core, List.flatMap_cons, List.append_assoc]
    -- The others send under the stamps that they had before this push.
    rw [List.flatMap_def, List.flatMap_def]
    congr 3
    refine List.map_congr_left fun other hother => Core.sent_advance (decide_eq_false ?_)
    rintro rfl
    exact hnot hother

theorem pushEach_fresh (w : World) (names : List String) (datum : Datum) :
    (w.pushEach names datum).edges.fresh = w.edges.fresh := by
  induction names generalizing w with
  | nil => rfl
  | cons name rest ih => exact (ih (w.push name datum).2).trans (push_fresh w name datum)

/-! ## A push from all outputs, and the report -/

/-- The outputs on which results are sent: all but the heartbeat. -/
def outlets (w : World) : List String := (w.core.portNames .output).filter (· ≠ Core.heartbeat)

theorem nodup_outlets (w : World) : w.outlets.Nodup := (w.core.nodup_portNames .output).filter _

theorem pushToAll_core (w : World) (datum : Datum) :
    (w.pushToAll datum).core = w.core.advance (· ≠ Core.heartbeat) := by
  apply (pushEach_core w w.nodup_outlets datum).trans
  apply Core.eq_of_port? rfl
  intro key
  rw [Core.port?_advance, Core.port?_advance]
  cases hport : w.core.port? key with
  | none => rfl
  | some port =>
    have hmem : key.direction = .output → key.name ∈ w.core.portNames .output := fun hd =>
      Core.mem_portNames.mpr ⟨port, by rw [← hd]; exact hport⟩
    by_cases hd : key.direction = .output <;> simp [outlets, hd, hmem]

theorem pushToAll_queue (w : World) (datum : Datum) (id : EdgeId) :
    (w.pushToAll datum).edges.queue id =
      w.edges.queue id ++ w.outlets.flatMap (w.core.sent datum id) :=
  pushEach_queue w w.nodup_outlets datum id

theorem pushToAll_fresh (w : World) (datum : Datum) :
    (w.pushToAll datum).edges.fresh = w.edges.fresh :=
  pushEach_fresh w w.outlets datum

/-! ## Draining -/

@[simp] theorem drain_core (w : World) (port : String) (count : Nat) :
    (w.drain port count).core = w.core := by
  rw [drain]
  cases w.inputEdge? port <;> rfl

@[simp] theorem drain_fresh (w : World) (port : String) (count : Nat) :
    (w.drain port count).edges.fresh = w.edges.fresh := by
  rw [drain]
  cases w.inputEdge? port <;> rfl

theorem drain_queue (w : World) (port : String) (count : Nat) (id : EdgeId) :
    (w.drain port count).edges.queue id =
      (w.edges.queue id).drop (if w.inputEdge? port = some id then count else 0) := by
  rw [drain]
  cases w.inputEdge? port with
  | none => rfl
  | some edge =>
    rw [Edges.queue_drop]
    simp only [Option.some.injEq, eq_comm]

theorem drainStep_core (w : World) (heads : List Head) : (w.drainStep heads).core = w.core := by
  induction heads generalizing w with
  | nil => rfl
  | cons head rest ih => exact (ih _).trans (drain_core w _ _)

theorem drainStep_fresh (w : World) (heads : List Head) :
    (w.drainStep heads).edges.fresh = w.edges.fresh := by
  induction heads generalizing w with
  | nil => rfl
  | cons head rest ih => exact (ih _).trans (drain_fresh w _ _)

/-- The heads that lie on an edge. -/
def headsOn (w : World) (heads : List Head) (id : EdgeId) : List Head :=
  heads.filter fun head => w.inputEdge? head.port = some id

/-- What one step takes from the edges of some heads. -/
def tokensOf (heads : List Head) : Nat :=
  heads.foldr (fun head count => head.frequency.tokensPerStep + count) 0

theorem drainStep_queue (w : World) (heads : List Head) (id : EdgeId) :
    (w.drainStep heads).edges.queue id =
      (w.edges.queue id).drop (tokensOf (w.headsOn heads id)) := by
  induction heads generalizing w with
  | nil => rfl
  | cons head rest ih =>
    -- What a drain takes does not change where the other inputs are bound.
    have hbound : (w.drain head.port head.frequency.tokensPerStep).inputEdge? = w.inputEdge? := by
      funext port
      rw [inputEdge?, inputEdge?, drain_core]
    change ((w.drain head.port head.frequency.tokensPerStep).drainStep rest).edges.queue id = _
    rw [ih, headsOn, hbound, drain_queue, List.drop_drop, headsOn, List.filter_cons]
    by_cases hhead : w.inputEdge? head.port = some id
    · rw [if_pos hhead, if_pos (decide_eq_true hhead)]
      rfl
    · rw [if_neg hhead, if_neg (fun hc => hhead (of_decide_eq_true hc)), Nat.zero_add]

end World

end Dataflow
