import Dataflow.Proofs.Core.Proposal
import Dataflow.Proofs.Process.Task
import Dataflow.Proofs.Types.Agreement
import Dataflow.Proofs.Types.Onward

/-!
# Refusals

A request that fails has done nothing. One request only can fail when something is done already: a
datum has to be taken from its edge before its kind is known, and a datum of another kind than the
one that was asked for is gone. A refused type changes nothing either.
-/

namespace Dataflow

/-- Whether an error is about the kind of a datum. -/
def ProcessError.isCast : ProcessError → Bool
  | badCast _ _ _ _ => true
  | _ => false

/-- Whether an attempt that fails leaves everything as it was. Its errors are not about the kind of a
datum. -/
def Attempt.Whole {σ α : Type} (before : σ) (attempt : Attempt σ α) : Prop :=
  ∀ e, attempt.1 = .error e → attempt.2 = before ∧ e.isCast = false

namespace Attempt.Whole

variable {σ α : Type} {before : σ}

theorem of_ok {result : α} {after : σ} : Whole before ((.ok result, after) : Attempt σ α) :=
  fun _ h => nomatch h

theorem of_error {e : ProcessError} (h : e.isCast = false) :
    Whole before ((.error e, before) : Attempt σ α) := by
  intro e' he'
  rw [← Except.error.inj he']
  exact ⟨rfl, h⟩

end Attempt.Whole

namespace Core

open Attempt

/-! ## Changes of a core -/

theorem declare_whole (c : Core) (key : PortKey) (info : PortInfo) :
    Whole c (c.declare key info) ∧ ∀ cause, (c.declare key info).1 ≠ .error (.config cause) := by
  -- The key of a static input is declared only if there is none yet, so that it is never refused.
  have hdeclared := c.declared key info
  generalize c.declare key info = attempt at hdeclared ⊢
  cases hdeclared with
  | late | known | unfit => exact ⟨.of_error rfl, nofun⟩
  | made => exact ⟨.of_ok, nofun⟩

theorem remove_whole (c : Core) (key : PortKey) : Whole c (c.remove key) := by
  have hremoved := c.removed key
  generalize c.remove key = attempt at hremoved ⊢
  cases hremoved with
  | reserved | late | absent => exact .of_error rfl
  | made => exact .of_ok

theorem setFrequency_whole (c : Core) (key : PortKey) (frequency : Frequency) :
    Whole c (c.setFrequency key frequency) := by
  have hretimed := c.retimed key frequency
  generalize c.setFrequency key frequency = attempt at hretimed ⊢
  cases hretimed with
  | late | absent => exact .of_error rfl
  | made => exact .of_ok

theorem declareKey_whole (c : Core) (key : String) (info : KeyInfo) :
    Whole c (c.declareKey key info) := by
  rw [declareKey]
  cases c.registry.declare key info with
  | ok registry => exact .of_ok
  | error e => exact .of_error rfl

theorem checkProposal_isCast {c : Core} {key : PortKey} {proposed : DataType} {e : ProcessError}
    (h : c.checkProposal key proposed = .error e) : e.isCast = false := by
  rw [checkProposal] at h
  repeat' split at h
  all_goals first | (rw [← Except.error.inj h]; rfl) | cases h

theorem resolve_whole (c : Core) (key : PortKey) (proposed : DataType) :
    Whole c (c.resolve key proposed) := by
  have hresolved := c.resolved key proposed
  generalize c.resolve key proposed = attempt at hresolved ⊢
  cases hresolved with
  | refused check => exact .of_error (checkProposal_isCast check)
  | answered | settled => exact .of_ok

theorem connect_whole (c : Core) (key : PortKey) (edge? : Option EdgeId) {e : ProcessError}
    (h : (c.connect key edge?).1 = .error e) : (c.connect key edge?).2 = c := by
  rcases c.connect_cases key edge? with ⟨e', hsame⟩ | ⟨edge, port, -, -, -, -, hbound⟩
  · rw [hsame]
  · rw [hbound] at h
    exact nomatch h

theorem isCast_of_read {α : Type} (c : Core) (key : PortKey) (view : Port → α) {e : ProcessError}
    (h : (match c.port? key with
      | some port => Except.ok (view port)
      | none => .error (c.noPort key)) = .error e) :
    e.isCast = false := by
  cases hport : c.port? key with
  | none =>
    rw [hport] at h
    rw [← Except.error.inj h]
    rfl
  | some port =>
    rw [hport] at h
    exact nomatch h

theorem value_isCast {α : Type} {c : Core} {read : String → Except ReadFault α} {key : String}
    {e : ProcessError} (h : c.value read key = .error e) : e.isCast = false := by
  rw [value] at h
  cases hread : c.registry.value read key with
  | ok result =>
    rw [hread] at h
    exact nomatch h
  | error cause =>
    rw [hread] at h
    rw [← Except.error.inj h]
    rfl

/-! ## Types that are refused -/

/-- Whether nothing shows of what was done. Paths in the groups may have been shortened. -/
structure Unmoved (c after : Core) : Prop where
  rest : { after with groups := c.groups } = c
  slots_eq : after.groups.slots = c.groups.slots
  tags_eq : after.groups.tags = c.groups.tags
  members_eq (key : PortKey) : (after.groups.members key).1 = (c.groups.members key).1
  pin_eq (key : PortKey) : (after.groups.pin key).1 = (c.groups.pin key).1
  pinOfTag_eq (tag : String) : (after.groups.pinOfTag tag).1 = (c.groups.pinOfTag tag).1

theorem Unmoved.refl (c : Core) : c.Unmoved c :=
  ⟨rfl, rfl, rfl, fun _ => rfl, fun _ => rfl, fun _ => rfl⟩

theorem settle_refused {c : Core} (sound : c.groups.Sound) {key : PortKey} {type : String}
    (h : (c.settle key type).1 = false) : c.Unmoved (c.settle key type).2 := by
  cases hslot : c.groups.slot? key with
  | none =>
    rw [settle, Groups.settle, hslot] at h
    cases h
  | some slot =>
    have hdecided := sound.settle hslot type
    rw [settle] at h ⊢
    generalize c.groups.settle key type = decided at hdecided h ⊢
    cases hdecided with
    | @settled members after found_eq sound' slot_eq keeps classmates => cases h
    | @known found after found_eq shortened =>
      -- A class that has another type already is only looked up.
      by_cases hsame : found = type
      · rw [if_pos hsame] at h
        cases h
      · rw [if_neg hsame]
        exact ⟨rfl, shortened.slots_eq, shortened.tags_eq, shortened.members_eq sound,
          shortened.pin_eq sound, shortened.pinOfTag_eq sound⟩

theorem resolve_refused {c : Core} (sound : c.groups.Sound) {key : PortKey} {proposed : DataType}
    (h : (c.resolve key proposed).1 = .ok false) : c.Unmoved (c.resolve key proposed).2 := by
  have hresolved := c.resolved key proposed
  generalize c.resolve key proposed = attempt at hresolved h ⊢
  cases hresolved with
  | refused | answered => exact .refl c
  | settled => exact settle_refused sound (Except.ok.inj h)

end Core

namespace World

/-! ## Requests -/

/-- What a request that fails leaves behind: everything as it was, or an edge without its head, if
that is of another kind than the one asked for. -/
inductive Refused (w : World) (r : Request) : ProcessError → World → Prop where
  | whole {e : ProcessError} (other : e.isCast = false) : Refused w r e w
  | miscast {port : String} {kind : Payload.Kind} {edge : EdgeId} {token : Stamped}
      {rest : List Stamped}
      (asked : r = .grabAs port kind ∨ ∃ scalar, r = .grabInput port scalar ∧ kind = .scalar scalar)
      (bound : w.inputEdge? port = some edge) (queued : w.edges.queue edge = token :: rest)
      (unfit : token.datum.get? kind = none) :
      Refused w r (.badCast w.core.name port token.status kind)
        { w with edges := w.edges.setQueue edge rest }

variable {w : World}

theorem Refused.of_whole {r : Request} {α : Type} {attempt : Attempt World α}
    (h : Attempt.Whole w attempt) {e : ProcessError} (he : attempt.1 = .error e) :
    w.Refused r e attempt.2 := by
  obtain ⟨hsame, other⟩ := h e he
  rw [hsame]
  exact .whole other

theorem whole_onCore {α : Type} {attempt : Attempt Core α} (h : Attempt.Whole w.core attempt) :
    Attempt.Whole w (w.onCore attempt) := by
  intro e he
  obtain ⟨hsame, other⟩ := h e he
  refine ⟨?_, other⟩
  rw [onCore, hsame]

theorem grab_whole (port : String) : Attempt.Whole w (w.grab port) := by
  rw [grab]
  cases w.core.port? (.input port) with
  | none => exact .of_error rfl
  | some p =>
    dsimp only
    cases p.edges with
    | nil => exact .of_error rfl
    | cons edge rest => exact .of_ok

theorem grabAs_refused {r : Request} {port : String} {kind : Payload.Kind} {e : ProcessError}
    (asked : r = .grabAs port kind ∨ ∃ scalar, r = .grabInput port scalar ∧ kind = .scalar scalar)
    (h : (w.grabAs port kind).1 = .error e) : w.Refused r e (w.grabAs port kind).2 := by
  cases hbound : w.inputEdge? port with
  | none =>
    obtain ⟨e', hgrab⟩ := grab_of_unbound hbound
    have hcast : e'.isCast = false := (w.grab_whole port e' (congrArg Prod.fst hgrab)).2
    rw [grabAs, hgrab] at h ⊢
    rw [← Except.error.inj h]
    exact .whole hcast
  | some edge =>
    rw [grabAs, grab_of_bound hbound, Edges.pop] at h ⊢
    cases hqueue : w.edges.queue edge with
    | nil =>
      rw [hqueue] at h
      cases h
    | cons token rest =>
      rw [hqueue] at h
      dsimp only at h ⊢
      cases hget : token.datum.get? kind with
      | some payload =>
        rw [hget] at h
        cases h
      | none =>
        -- The head is off its edge by now.
        rw [hget] at h
        rw [← Except.error.inj h]
        exact .miscast asked hbound hqueue hget

theorem grabInput_refused {port : String} {kind : Scalar.Kind} {e : ProcessError}
    (h : (w.grabInput port kind).1 = .error e) :
    w.Refused (.grabInput port kind) e (w.grabInput port kind).2 := by
  rw [grabInput] at h ⊢
  cases hport : w.core.port? (.input port) with
  | none =>
    rw [hport] at h
    rw [← Except.error.inj h]
    exact .whole rfl
  | some p =>
    rw [hport] at h
    dsimp only at h ⊢
    split at h
    · -- The text of the key is read, and the edges are left alone.
      rename_i unbound
      rw [if_pos unbound]
      refine .whole ?_
      cases hvalue : w.core.value kind.read (Core.staticKey port) with
      | ok value =>
        rw [hvalue] at h
        cases h
      | error e' =>
        rw [hvalue] at h
        rw [← Except.error.inj h]
        exact Core.value_isCast hvalue
    · rename_i bound
      rw [if_neg bound]
      refine grabAs_refused (.inr ⟨kind, rfl, rfl⟩) ?_
      cases htaken : (w.grabAs port (.scalar kind)).1 with
      | ok payload? =>
        rw [htaken] at h
        cases h
      | error e' =>
        rw [htaken] at h
        exact congrArg Except.error (Except.error.inj h)

/-- A request that fails changes nothing, unless it has taken a datum that does not fit. -/
theorem perform_refused {r : Request} {e : ProcessError} (h : (w.perform r).1 = .error e) :
    w.Refused r e (w.perform r).2 := by
  cases r with
  | grabAs port kind => exact grabAs_refused (.inl rfl) h
  | grabInput port kind => exact grabInput_refused h
  | grab port => exact .of_whole (w.grab_whole port) h
  | declare key info => exact .of_whole (whole_onCore (w.core.declare_whole key info).1) h
  | remove key => exact .of_whole (whole_onCore (w.core.remove_whole key)) h
  | setFrequency key frequency =>
    exact .of_whole (whole_onCore (w.core.setFrequency_whole key frequency)) h
  | declareKey key info => exact .of_whole (whole_onCore (w.core.declareKey_whole key info)) h
  | resolve key proposed => exact .of_whole (whole_onCore (w.core.resolve_whole key proposed)) h
  | push port datum =>
    have hwhole : Attempt.Whole w (w.push port datum) := by
      rw [push]
      cases w.core.port? (.output port) with
      | none => exact .of_error rfl
      | some p => exact .of_ok
    exact .of_whole hwhole h
  | info key => exact .whole (w.core.isCast_of_read key Port.info h)
  | hasEdge port =>
    refine .whole ?_
    change (· != 0) <$> w.core.edgeCount (.input port) = .error e at h
    cases hedges : w.core.edgeCount (.input port) with
    | ok count =>
      rw [hedges] at h
      cases h
    | error e' =>
      rw [hedges] at h
      exact Except.error.inj h ▸ w.core.isCast_of_read (.input port) (·.edges.length) hedges
  | countEdges port => exact .whole (w.core.isCast_of_read (.output port) (·.edges.length) h)
  | nextStamp port => exact .whole (w.core.isCast_of_read (.output port) Port.stamp h)
  | value key kind => exact .whole (Core.value_isCast h)
  | peek port index =>
    refine .whole ?_
    change w.peek port index = .error e at h
    rw [peek] at h
    split at h
    · rw [← Except.error.inj h]
      rfl
    · cases h
  | name | typeName | state | isComplete | level | portNames _ | config | debug | setLevel _
  | markComplete => cases h

end World

namespace Process

variable {σ : Type} {config : Config} {plugin : Plugin σ} {memory : σ} {edges : Edges}
  {commands : List (Edges × Command)}

/-- In every world of a life, with whatever on the edges, a request that fails changes nothing but
for a head that does not fit, and so it is with a refused edge and a refused type. A declaration never
fails for the key that comes with it. -/
theorem refusals_change_nothing {w : World} (hw : w ∈ life config plugin memory edges commands)
    (store : Edges) :
    (∀ r e, (World.perform ⟨w.core, store⟩ r).1 = .error e →
        World.Refused ⟨w.core, store⟩ r e (World.perform ⟨w.core, store⟩ r).2) ∧
      (∀ key proposed, (w.core.resolve key proposed).1 = .ok false →
        w.core.Unmoved (w.core.resolve key proposed).2) ∧
      (∀ key edge? e, (w.core.connect key edge?).1 = .error e →
        (w.core.connect key edge?).2 = w.core) ∧
      ∀ key info cause, (w.core.declare key info).1 ≠ .error (.config cause) := by
  obtain ⟨i, hi⟩ := List.mem_iff_getElem?.mp hw
  have sound := (sound_of_life hi).groups
  refine ⟨fun r e h => World.perform_refused h, fun key proposed h => ?_, fun key edge? e h => ?_,
    fun key info => (w.core.declare_whole key info).2⟩
  · exact Core.resolve_refused sound h
  · exact w.core.connect_whole key edge? h

def relayWired : List World :=
  life ∅ relay () .empty
    [(.empty, .configure), (.empty, .connect (.input "in") (some ⟨0⟩))]

def waiting : Edges :=
  (Edges.empty.push ⟨0⟩ ⟨.first, .empty⟩).push ⟨0⟩ ⟨Stamp.first.next, .complete⟩

/-- Asked for bytes, the input loses its first marker. -/
theorem refusals_change_nothing_relay :
    ∃ w ∈ relayWired, (World.perform ⟨w.core, waiting⟩ (.grabAs "in" .bytes)).1 =
        .error (.badCast "(unnamed)" "in" .empty .bytes) ∧
      (World.perform ⟨w.core, waiting⟩ (.grabAs "in" .bytes)).2 =
        ⟨w.core, waiting.setQueue ⟨0⟩ [⟨Stamp.first.next, .complete⟩]⟩ := by
  have hend : relayWired.getLast?.map (fun w =>
      (World.inputEdge? ⟨w.core, waiting⟩ "in",
        (World.perform ⟨w.core, waiting⟩ (.grabAs "in" .bytes)).1)) =
      some (some ⟨0⟩, .error (.badCast "(unnamed)" "in" .empty .bytes)) := by
    decide +kernel
  obtain ⟨w, hlast, hw⟩ := Option.map_eq_some_iff.mp hend
  obtain ⟨hbound, hfail⟩ := Prod.mk.inj hw
  have hmem : w ∈ relayWired := List.mem_of_getLast? hlast
  have hqueue : waiting.queue ⟨0⟩ =
      [⟨.first, .empty⟩, ⟨Stamp.first.next, .complete⟩] := by
    decide +kernel
  obtain ⟨hrefused, -⟩ := refusals_change_nothing hmem waiting
  have hafter := hrefused _ _ hfail
  refine ⟨w, hmem, hfail, ?_⟩
  generalize (World.perform ⟨w.core, waiting⟩ (.grabAs "in" .bytes)).2 = after at hafter ⊢
  generalize he : ProcessError.badCast "(unnamed)" "in" .empty .bytes = e at hafter
  cases hafter with
  | whole other =>
    rw [← he] at other
    exact nomatch other
  | @miscast port kind edge token rest asked bound queued unfit =>
    rcases asked with asked | ⟨scalar, asked, -⟩
    · obtain ⟨rfl, -⟩ := Request.grabAs.inj asked
      -- The edge that is shortened is the one bound to the input.
      have hedge : edge = ⟨0⟩ := Option.some.inj (bound.symm.trans hbound)
      have hrest : token :: rest = _ := queued.symm.trans (hedge ▸ hqueue)
      rw [hedge, (List.cons.inj hrest).2]
    · exact nomatch asked

end Process

end Dataflow
