import Dataflow.Process.Basic
import Dataflow.Proofs.Check.Verdict
import Dataflow.Proofs.Core.Sending

/-!
# What the check before a step finds

The check looks at a list of heads. Here its verdict is told by the ports and the edges themselves:
which inputs are required and bound, whether two of them have heads of different places, and which
status is the gravest one among them.
-/

namespace Dataflow

/-! ## The required inputs of a world -/

namespace World

/-- A required input, and the edge that is bound to it. -/
structure Requires (w : World) (name : String) (port : Port) (edge : EdgeId) : Prop where
  declared : w.core.port? (.input name) = some port
  required : port.info.flags.required = true
  bound : port.edges.head? = some edge

/-- The head of an edge. -/
def first? (w : World) (edge : EdgeId) : Option Stamped := (w.edges.queue edge).head?

/-- The status of the head of an edge. An empty edge has nothing for this step. -/
def statusOn (w : World) (edge : EdgeId) : Status := (w.first? edge).elim .empty Stamped.status

/-- Two required inputs have heads of different places. -/
def OutOfSync (w : World) : Prop :=
  ∃ name port edge name' port' edge' token token', w.Requires name port edge ∧
    w.Requires name' port' edge' ∧ w.first? edge = some token ∧ w.first? edge' = some token' ∧
    token.stamp ≠ token'.stamp

/-- The gravest status of the required inputs. Without any there is nothing wrong. -/
structure Gravest (w : World) (status : Status) : Prop where
  bound : ∀ {name port edge}, w.Requires name port edge → w.statusOn edge ≤ status
  reached : status = .data ∨ ∃ name port edge, w.Requires name port edge ∧ w.statusOn edge = status

/-- The head of a required input as the check sees it. -/
def headAt (w : World) (name : String) (port : Port) (edge : EdgeId) : Head :=
  ⟨name, port.info.frequency, w.first? edge⟩

theorem mem_requiredHeads {w : World} {head : Head} :
    head ∈ w.requiredHeads ↔
      ∃ name port edge, w.Requires name port edge ∧ head = w.headAt name port edge := by
  simp only [requiredHeads, List.mem_filterMap, Prod.exists,
    Std.ExtTreeMap.mem_toList_iff_getElem?_eq_some]
  constructor
  · rintro ⟨key, port, hport, hhead⟩
    split at hhead
    · rename_i h
      obtain ⟨edge, hedge, rfl⟩ := Option.map_eq_some_iff.mp hhead
      refine ⟨key.name, port, edge, ⟨?_, h.2, hedge⟩, ?_⟩
      · rw [← hport, Core.port?, PortKey.input, ← h.1]
      · rw [headAt, first?, Edges.peek?, List.head?_eq_getElem?]
    · exact absurd hhead.symm (Option.some_ne_none _)
  · rintro ⟨name, port, edge, h, rfl⟩
    refine ⟨.input name, port, h.declared, ?_⟩
    rw [if_pos ⟨rfl, h.required⟩, h.bound, Option.map_some, headAt, first?, Edges.peek?,
      List.head?_eq_getElem?]

/-- No input has two heads. -/
theorem nodup_requiredHeads (w : World) : w.requiredHeads.Nodup := by
  rw [requiredHeads, List.Nodup, List.pairwise_filterMap]
  refine w.core.ports.ordered_keys_toList.imp ?_
  rintro ⟨⟨direction, name⟩, port⟩ ⟨⟨direction', name'⟩, port'⟩ hlt head hhead head' hhead' rfl
  dsimp only at hhead hhead'
  split at hhead <;> split at hhead' <;> try contradiction
  rename_i hdirection hdirection'
  obtain ⟨edge, -, rfl⟩ := Option.map_eq_some_iff.mp hhead
  obtain ⟨edge', -, hsame⟩ := Option.map_eq_some_iff.mp hhead'
  have hname : name' = name := congrArg Head.port hsame
  have hkey : (⟨direction, name⟩ : PortKey) = ⟨direction', name'⟩ := by
    rw [hname, hdirection.1, hdirection'.1]
  have hself : compare (⟨direction, name⟩ : PortKey) ⟨direction', name'⟩ = .eq :=
    hkey ▸ Std.ReflCmp.compare_self
  exact nomatch hself.symm.trans hlt

theorem inSync_requiredHeads (w : World) : inSync w.requiredHeads = false ↔ w.OutOfSync := by
  rw [inSync_eq_false_iff]
  constructor
  · rintro ⟨one, hone, other, hother, stamp, stamp', hstamp, hstamp', hne⟩
    obtain ⟨name, port, edge, h, rfl⟩ := mem_requiredHeads.mp hone
    obtain ⟨name', port', edge', h', rfl⟩ := mem_requiredHeads.mp hother
    obtain ⟨token, htoken, rfl⟩ := Option.map_eq_some_iff.mp hstamp
    obtain ⟨token', htoken', rfl⟩ := Option.map_eq_some_iff.mp hstamp'
    exact ⟨name, port, edge, name', port', edge', token, token', h, h', htoken, htoken', hne⟩
  · rintro ⟨name, port, edge, name', port', edge', token, token', h, h', htoken, htoken', hne⟩
    refine ⟨_, mem_requiredHeads.mpr ⟨name, port, edge, h, rfl⟩, _,
      mem_requiredHeads.mpr ⟨name', port', edge', h', rfl⟩, token.stamp, token'.stamp, ?_, ?_, hne⟩
    · rw [Head.stamp?, headAt, htoken, Option.map_some]
    · rw [Head.stamp?, headAt, htoken', Option.map_some]

theorem status_headAt (w : World) (name : String) (port : Port) (edge : EdgeId) :
    (w.headAt name port edge).status = w.statusOn edge := by
  rw [Head.status, headAt, statusOn]
  cases w.first? edge <;> rfl

theorem gravest_worstStatus (w : World) : w.Gravest (worstStatus w.requiredHeads) := by
  constructor
  · intro name port edge h
    rw [← w.status_headAt name port edge]
    exact status_le_worst (mem_requiredHeads.mpr ⟨name, port, edge, h, rfl⟩)
  · refine (worst_reached w.requiredHeads).imp id ?_
    rintro ⟨head, hhead, hstatus⟩
    obtain ⟨name, port, edge, hrequires, rfl⟩ := mem_requiredHeads.mp hhead
    exact ⟨name, port, edge, hrequires, (w.status_headAt name port edge).symm.trans hstatus⟩

theorem Gravest.le {w : World} {status other : Status} (h : w.Gravest status)
    (hother : w.Gravest other) : status ≤ other := by
  rcases h.reached with rfl | ⟨name, port, edge, hrequires, rfl⟩
  · exact Nat.zero_le other.severity
  · exact hother.bound hrequires

/-- There is one gravest status only, and the check finds it. -/
theorem gravest_iff {w : World} {status : Status} :
    w.Gravest status ↔ status = worstStatus w.requiredHeads := by
  constructor
  · intro h
    exact Status.le_antisymm (h.le w.gravest_worstStatus) (w.gravest_worstStatus.le h)
  · rintro rfl
    exact w.gravest_worstStatus

end World

end Dataflow
