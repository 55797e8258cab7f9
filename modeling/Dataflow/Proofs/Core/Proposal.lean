import Dataflow.Core.Negotiate

/-!
# What comes of a proposal

A proposal is refused, or answered without any change, or its type is settled. `Resolved` tells the
three apart, so that nobody has to go through the branches of `resolve` again.
-/

namespace Dataflow

theorem DataType.isDependent_of_static {declared : DataType}
    (h : declared.isConcrete = true ∨ declared = .none) : declared.isDependent = false := by
  cases declared with
  | concrete name | none => rfl
  | any | dataDependent | flowDependent tag => exact h.elim nofun nofun

namespace Port

/-- Whether the type of a port is still to be found. -/
def Open (port : Port) : Prop :=
  port.declared.isDependent = true ∧ port.info.type.isConcrete = false

instance (port : Port) : Decidable port.Open := inferInstanceAs (Decidable (_ ∧ _))

/-- Whether a port goes along with a type without changing its own. -/
def abides (port : Port) (proposed : DataType) : Bool :=
  decide (port.info.type = proposed ∨ proposed.isConcrete = true ∧ port.declared = .any)

end Port

namespace Core

/-- What may come of a proposal. -/
inductive Resolved (c : Core) (key : PortKey) (proposed : DataType) : Attempt Core Bool → Prop where
  | refused {e : ProcessError} (check : c.checkProposal key proposed = .error e) :
      Resolved c key proposed (.error e, c)
  | answered {port : Port} (check : c.checkProposal key proposed = .ok ())
      (declared : c.port? key = some port) (closed : ∀ type, proposed = .concrete type → ¬ port.Open) :
      Resolved c key proposed (.ok (port.abides proposed), c)
  | settled {port : Port} {type : String} (check : c.checkProposal key proposed = .ok ())
      (declared : c.port? key = some port) (concrete : proposed = .concrete type)
      (opened : port.Open) :
      Resolved c key proposed (.ok (c.settle key type).1, (c.settle key type).2)

/-- A proposal that may be made is made to a declared port, before the initialization. -/
theorem port_of_check {c : Core} {key : PortKey} {proposed : DataType}
    (h : c.checkProposal key proposed = .ok ()) :
    c.state ≠ .initialized ∧ ∃ port, c.port? key = some port ∧
      ¬ ((port.declared.isConcrete ∨ port.declared = .none) ∧ port.info.type ≠ proposed) := by
  unfold checkProposal at h
  split at h
  · exact nomatch h
  · rename_i early
    refine ⟨early, ?_⟩
    cases hport : c.port? key with
    | none =>
      rw [hport] at h
      exact nomatch h
    | some port =>
      rw [hport] at h
      dsimp only at h
      split at h
      · exact nomatch h
      · rename_i free
        exact ⟨port, rfl, free⟩

theorem check_of_open {c : Core} {key : PortKey} {port : Port} {proposed : DataType}
    (early : c.state ≠ .initialized) (hport : c.port? key = some port) (opened : port.Open) :
    c.checkProposal key proposed = .ok () := by
  have free : ¬ (port.declared.isConcrete ∨ port.declared = .none) := fun static =>
    Bool.false_ne_true ((DataType.isDependent_of_static static).symm.trans opened.1)
  rw [checkProposal, if_neg early, hport]
  exact if_neg fun hc => free hc.1

theorem resolved (c : Core) (key : PortKey) (proposed : DataType) :
    c.Resolved key proposed (c.resolve key proposed) := by
  rw [resolve]
  cases hcheck : c.checkProposal key proposed with
  | error e => exact .refused hcheck
  | ok _ =>
    obtain ⟨-, port, hport, -⟩ := port_of_check hcheck
    rw [hport]
    -- An answer that changes nothing says whether the port abides the type.
    have hanswer {answer : Bool} (closed : ∀ type, proposed = .concrete type → ¬ port.Open)
        (h : port.abides proposed = answer) : c.Resolved key proposed (.ok answer, c) :=
      h ▸ .answered hcheck hport closed
    dsimp only
    by_cases hsame : port.info.type = proposed
    · rw [if_pos hsame]
      refine hanswer ?_ (decide_eq_true (.inl hsame))
      rintro type rfl ⟨-, unsettled⟩
      rw [hsame] at unsettled
      exact nomatch unsettled
    · rw [if_neg hsame]
      have hother (h : ¬ (proposed.isConcrete = true ∧ port.declared = .any)) :
          port.abides proposed = false :=
        decide_eq_false fun hc => hc.elim hsame h
      cases proposed with
      | any | none | dataDependent | flowDependent _ => exact hanswer nofun (hother nofun)
      | concrete type =>
        dsimp only
        by_cases hany : port.declared = .any
        · rw [if_pos hany]
          refine hanswer ?_ (decide_eq_true (.inr ⟨rfl, hany⟩))
          rintro _ - ⟨dependent, -⟩
          rw [hany] at dependent
          exact nomatch dependent
        · rw [if_neg hany]
          by_cases hfixed : port.declared.isDependent = false
          · rw [if_pos hfixed]
            refine hanswer ?_ (hother fun h => hany h.2)
            rintro _ - ⟨dependent, -⟩
            exact nomatch hfixed.symm.trans dependent
          · rw [if_neg hfixed]
            by_cases hshown : port.info.type.isConcrete = true
            · rw [if_pos hshown]
              refine hanswer ?_ (hother fun h => hany h.2)
              rintro _ - ⟨-, unsettled⟩
              exact nomatch hshown.symm.trans unsettled
            · rw [if_neg hshown]
              have opened : port.Open :=
                ⟨(Bool.not_eq_false _).mp hfixed, (Bool.not_eq_true _).mp hshown⟩
              exact .settled hcheck hport rfl opened

end Core

end Dataflow
