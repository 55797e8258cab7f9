import Dataflow.Proofs.Types.Proposal

/-!
# Many proposals

Of all types that are proposed for the ports of a class, the first named one is taken, whatever is
proposed in between, and whatever is proposed for other classes. So a reply depends on what was
proposed for the class of the port before, and proposals for different classes can be exchanged.
-/

namespace Dataflow

namespace Port

/-- The type that a port shows when its class is offered a type. -/
def typeAfter (port : Port) (offered? : Option String) : DataType :=
  if port.declared.isDependent = true ∧ port.info.type.isConcrete = false then
    offered?.elim port.declared .concrete
  else port.info.type

/-- The port when its class is offered a type: it is taken if none was found before. -/
def offered (port : Port) (offered? : Option String) : Port :=
  if port.info.type.isDependent = true then
    offered?.elim port fun type => port.showing (.concrete type)
  else port

theorem offered_none (port : Port) : port.offered none = port := ite_self port

theorem offered_of_dependent {port : Port} (h : port.info.type.isDependent = true) (type : String) :
    port.offered (some type) = port.showing (.concrete type) := if_pos h

theorem offered_of_found {port : Port} (h : port.info.type.isDependent = false)
    (offered? : Option String) : port.offered offered? = port := if_neg (h ▸ Bool.false_ne_true)

theorem declared_offered (port : Port) (offered? : Option String) :
    (port.offered offered?).declared = port.declared := by
  unfold offered
  split
  · cases offered? <;> rfl
  · rfl

theorem offered_offered (port : Port) (offered? later? : Option String) :
    (port.offered offered?).offered later? = port.offered (offered?.or later?) := by
  cases offered? with
  | none => rw [offered_none, Option.none_or]
  | some type =>
    rw [Option.some_or]
    by_cases dependent : port.info.type.isDependent = true
    · -- What was taken first stays.
      rw [offered_of_dependent dependent]
      exact offered_of_found rfl later?
    · rw [offered_of_found ((Bool.not_eq_true _).mp dependent),
        offered_of_found ((Bool.not_eq_true _).mp dependent)]

end Port

namespace Core

/-- Types that are proposed for ports, one after the other. -/
abbrev Calls := List (PortKey × DataType)

/-- The first named type that is proposed for the class of a port. -/
def first? (c : Core) (key : PortKey) (calls : Calls) : Option String :=
  calls.findSome? fun call => if c.Classmates key call.1 then call.2.concrete? else none

def resolveAll (c : Core) : Calls → Core
  | [] => c
  | (key, proposed) :: rest => (c.resolve key proposed).2.resolveAll rest

def answers (c : Core) : Calls → List (Except ProcessError Bool)
  | [] => []
  | (key, proposed) :: rest => (c.resolve key proposed).1 :: (c.resolve key proposed).2.answers rest

theorem resolveAll_append (c : Core) (calls more : Calls) :
    c.resolveAll (calls ++ more) = (c.resolveAll calls).resolveAll more := by
  induction calls generalizing c with
  | nil => rfl
  | cons call rest ih => exact ih _

theorem answers_append (c : Core) (calls more : Calls) :
    c.answers (calls ++ more) = c.answers calls ++ (c.resolveAll calls).answers more := by
  induction calls generalizing c with
  | nil => rfl
  | cons call rest ih => exact congrArg _ (ih _)

theorem length_answers (c : Core) (calls : Calls) : (c.answers calls).length = calls.length := by
  induction calls generalizing c with
  | nil => rfl
  | cons call rest ih => exact congrArg Nat.succ (ih _)

/-! ## What stays -/

/-- Whether two cores differ in their ports and groups at most. -/
def SameRest (c after : Core) : Prop := { after with ports := c.ports, groups := c.groups } = c

theorem SameRest.refl (c : Core) : c.SameRest c := rfl

theorem SameRest.trans {c mid after : Core} (h : c.SameRest mid) (h' : mid.SameRest after) :
    c.SameRest after := by
  have hafter : { after with ports := c.ports, groups := c.groups } =
      { mid with ports := c.ports, groups := c.groups } :=
    congrArg (fun core : Core => { core with ports := c.ports, groups := c.groups }) h'
  exact hafter.trans h

theorem SameRest.state_eq {c after : Core} (h : c.SameRest after) : after.state = c.state := by
  have hstate := congrArg Core.state h
  exact hstate

theorem SameRest.name_eq {c after : Core} (h : c.SameRest after) : after.name = c.name := by
  have hname := congrArg Core.name h
  exact hname

theorem SameRest.eq_with {c after : Core} (h : c.SameRest after) :
    after = { c with ports := after.ports, groups := after.groups } := by
  have hcore := congrArg
    (fun core : Core => { core with ports := after.ports, groups := after.groups }) h
  exact hcore

theorem SameRest.eq {c one two : Core} (h : c.SameRest one) (h' : c.SameRest two)
    (ports_eq : one.ports = two.ports) (groups_eq : one.groups = two.groups) : one = two := by
  rw [h.eq_with, h'.eq_with, ports_eq, groups_eq]

theorem resolve_sameRest (c : Core) (key : PortKey) (proposed : DataType) :
    c.SameRest (c.resolve key proposed).2 := by
  have hresolved := c.resolved key proposed
  generalize c.resolve key proposed = attempt at hresolved ⊢
  cases hresolved with
  | refused | answered => exact .refl c
  | settled => exact c.settle_rest key _

theorem reply_congr {c one two : Core} (h : c.SameRest one) (h' : c.SameRest two) {key : PortKey}
    (hport : one.port? key = two.port? key) (proposed : DataType) :
    one.reply key proposed = two.reply key proposed := by
  rw [reply, reply, h.state_eq, h.name_eq, h'.state_eq, h'.name_eq, hport]

theorem settles?_congr {c after : Core} (h : c.SameRest after) {key : PortKey}
    (hport : after.port? key = c.port? key) (proposed : DataType) :
    after.settles? key proposed = c.settles? key proposed := by
  rw [settles?, settles?, h.state_eq, hport]

/-! ## One proposal -/

theorem Classmates.symm {c : Core} {key other : PortKey} (h : c.Classmates key other) :
    c.Classmates other key := by
  rcases h with rfl | ⟨htag, hsame⟩
  · exact .inl rfl
  · exact .inr ⟨hsame ▸ htag, hsame.symm⟩

theorem Classmates.declared {c : Core} {key other : PortKey} {port : Port}
    (h : c.Classmates key other) (hport : c.port? key = some port) :
    ∃ port', c.port? other = some port' := by
  rcases h with rfl | ⟨htag, hsame⟩
  · exact ⟨port, hport⟩
  · rw [← hsame] at htag
    obtain ⟨tag, htag⟩ := Option.isSome_iff_exists.mp htag
    obtain ⟨port', hport', -⟩ := Option.bind_eq_some_iff.mp htag
    exact ⟨port', hport'⟩

namespace Agrees

variable {c : Core} {a : Classes} {key other : PortKey} {port port' : Port}

/-- The ports of a class show sentinels together. -/
theorem dependent_of_classmates (h : c.Agrees a) (classmates : c.Classmates key other)
    (hport : c.port? key = some port) (hport' : c.port? other = some port')
    (dependent : port.info.type.isDependent = true) : port'.info.type.isDependent = true := by
  obtain ⟨label, hlabel, -⟩ := h.label_of_port hport
  have hother := (h.label_iff hlabel other).mpr classmates
  obtain ⟨declared, hnone⟩ := (h.dependent_iff hport hlabel).mp dependent
  exact (h.dependent_iff hport' hother).mpr
    ⟨h.dependent_of_label hport hlabel hport' hother declared, hnone⟩

theorem offered_eq (h : c.Agrees a) (hport : c.port? key = some port) (offered? : Option String) :
    port.offered offered? = port.showing (port.typeAfter offered?) := by
  have hopen := h.open_iff hport
  rw [Port.Open] at hopen
  rw [Port.typeAfter, Port.offered]
  by_cases dependent : port.info.type.isDependent = true
  · rw [if_pos dependent, if_pos (hopen.mpr dependent)]
    cases offered? with
    | some type => rfl
    | none =>
      -- Nothing is taken, and the port goes on to show what it was declared with.
      have hshown : port.info.type = port.declared := by
        obtain ⟨label, seeks⟩ := h.seeks_of_dependent hport dependent
        rw [h.type_eq hport, Classes.typeOf, seeks.label_eq, Option.bind_some, seeks.none_found,
          DataType.shown_none]
      rw [Option.elim_none, Option.elim_none, ← hshown]
      rfl
  · rw [if_neg dependent, if_neg (mt hopen.mp dependent)]
    rfl

theorem resolve (h : c.Agrees a) (key : PortKey) (proposed : DataType) :
    ∃ a', (c.resolve key proposed).2.Agrees a' := by
  rw [h.resolve_snd]
  cases hsettles : c.settles? key proposed with
  | none => exact ⟨a, h⟩
  | some type =>
    obtain ⟨label, seeks⟩ := h.seeks_of_settles hsettles
    exact ⟨_, h.settle_agrees seeks type⟩

/-- The class of the port is offered the type, and no other class is. -/
theorem resolve_port (h : c.Agrees a) (early : c.state ≠ .initialized) (key : PortKey)
    (proposed : DataType) (other : PortKey) :
    (c.resolve key proposed).2.port? other =
      (c.port? other).map
        (·.offered (if c.Classmates other key then proposed.concrete? else none)) := by
  rw [h.resolve_snd]
  cases hsettles : c.settles? key proposed with
  | none =>
    rw [finding]
    cases hport : c.port? other with
    | none => rfl
    | some port =>
      refine congrArg some ?_
      by_cases classmates : c.Classmates other key
      · rw [if_pos classmates]
        cases hconcrete : proposed.concrete? with
        | none => exact port.offered_none.symm
        | some type =>
          -- A named type would be settled if the class were looking for one.
          refine (Port.offered_of_found ?_ _).symm
          apply (Bool.not_eq_true _).mp
          intro dependent
          obtain ⟨port', hport'⟩ := classmates.declared hport
          have dependent' := h.dependent_of_classmates classmates hport hport' dependent
          have hsome := settles?_eq_some.mpr
            ⟨early, DataType.concrete?_eq_some.mp hconcrete, port', hport', dependent'⟩
          exact nomatch hsettles.symm.trans hsome
      · rw [if_neg classmates]
        exact port.offered_none.symm
  | some type =>
    obtain ⟨-, hconcrete, port, hport, dependent⟩ := settles?_eq_some.mp hsettles
    obtain ⟨label, seeks⟩ := h.seeks_of_dependent hport dependent
    rw [finding, (h.settled_eq seeks type).port_eq]
    by_cases classmates : c.Classmates key other
    · rw [if_pos classmates, if_pos classmates.symm, DataType.concrete?_eq_some.mpr hconcrete]
      apply Option.map_congr
      intro port' hport'
      have dependent' := h.dependent_of_classmates classmates hport hport' dependent
      exact (Port.offered_of_dependent dependent' type).symm
    · rw [if_neg classmates, if_neg fun hc => classmates hc.symm]
      simp [Port.offered_none]

theorem tagOf?_resolve (h : c.Agrees a) (early : c.state ≠ .initialized) (key : PortKey)
    (proposed : DataType) (other : PortKey) :
    (c.resolve key proposed).2.tagOf? other = c.tagOf? other := by
  rw [tagOf?, tagOf?, h.resolve_port early, Option.bind_map]
  simp only [Function.comp_def, Port.declared_offered]

end Agrees

/-! ## Many proposals -/

theorem classmates_congr {c after : Core} (htag : ∀ key, after.tagOf? key = c.tagOf? key)
    (key other : PortKey) : after.Classmates key other ↔ c.Classmates key other := by
  rw [Classmates, Classmates, htag, htag]

theorem first?_congr {c after : Core} (htag : ∀ key, after.tagOf? key = c.tagOf? key)
    (key : PortKey) (calls : Calls) : after.first? key calls = c.first? key calls := by
  unfold first?
  congr 1
  funext call
  exact if_congr (classmates_congr htag key call.1) rfl rfl

theorem first?_cons (c : Core) (key other : PortKey) (proposed : DataType) (rest : Calls) :
    c.first? key ((other, proposed) :: rest) =
      (if c.Classmates key other then proposed.concrete? else none).or (c.first? key rest) := by
  rw [first?, List.findSome?_cons]
  dsimp only
  cases if c.Classmates key other then proposed.concrete? else none <;> rfl

theorem first?_filter (c : Core) (key : PortKey) (calls : Calls) :
    c.first? key (calls.filter fun call => c.Classmates key call.1) = c.first? key calls := by
  induction calls with
  | nil => rfl
  | cons call rest ih =>
    obtain ⟨other, proposed⟩ := call
    by_cases classmates : c.Classmates key other
    · simp [classmates, first?_cons, ih]
    · simp [classmates, first?_cons, ih]

/-- What some proposals make of a core. -/
structure Negotiated (c : Core) (calls : Calls) (after : Core) : Prop where
  sameRest : c.SameRest after
  port_eq (key : PortKey) :
    after.port? key = (c.port? key).map (·.offered (c.first? key calls))
  agrees : ∃ a, after.Agrees a

theorem Agrees.negotiated {c : Core} {a : Classes} (h : c.Agrees a) (early : c.state ≠ .initialized)
    (calls : Calls) : c.Negotiated calls (c.resolveAll calls) := by
  -- The core that the first proposal leaves goes on with the rest.
  induction calls generalizing c a with
  | nil =>
    refine ⟨.refl c, fun key => ?_, a, h⟩
    have hfirst : c.first? key [] = none := rfl
    simp [hfirst, Port.offered_none, resolveAll]
  | cons call rest ih =>
    obtain ⟨key, proposed⟩ := call
    have hsame := c.resolve_sameRest key proposed
    obtain ⟨a', hagrees⟩ := h.resolve key proposed
    have hearly : (c.resolve key proposed).2.state ≠ .initialized := hsame.state_eq ▸ early
    obtain ⟨hsame', hports, hagrees'⟩ := ih hagrees hearly
    refine ⟨hsame.trans hsame', fun other => ?_, hagrees'⟩
    have hfirst := first?_congr (h.tagOf?_resolve early key proposed) other rest
    have hport := hports other
    rw [hfirst, h.resolve_port early, Option.map_map] at hport
    rw [resolveAll, hport, first?_cons]
    simp only [Function.comp_def, Port.offered_offered]

theorem Negotiated.tagOf?_eq {c after : Core} {calls : Calls} (h : c.Negotiated calls after)
    (key : PortKey) : after.tagOf? key = c.tagOf? key := by
  rw [tagOf?, tagOf?, h.port_eq, Option.bind_map]
  simp only [Function.comp_def, Port.declared_offered]

theorem Agrees.answer_own {c : Core} {a : Classes} (h : c.Agrees a) (early : c.state ≠ .initialized)
    (calls : Calls) (key : PortKey) (proposed : DataType) :
    ((c.resolveAll calls).resolve key proposed).1 =
      ((c.resolveAll (calls.filter fun call => c.Classmates key call.1)).resolve key proposed).1 := by
  have hall := h.negotiated early calls
  have hown := h.negotiated early (calls.filter fun call => c.Classmates key call.1)
  obtain ⟨a', hagrees⟩ := hall.agrees
  obtain ⟨a'', hagrees'⟩ := hown.agrees
  rw [hagrees.resolve_fst, hagrees'.resolve_fst]
  refine reply_congr hall.sameRest hown.sameRest ?_ proposed
  rw [hall.port_eq, hown.port_eq, first?_filter]

/-! ## Proposals for different classes -/

namespace Agrees

variable {c : Core} {a : Classes} {key other : PortKey} {label label' : Classes.Label}

theorem seeks_after (h : c.Agrees a) (seeks : c.Seeks a key label)
    (seeks' : c.Seeks a other label') (apart : label ≠ label') (type : String) :
    (c.settle key type).2.Seeks (a.pin label type) other label' := by
  obtain ⟨port, hport, declared⟩ := seeks'.port
  refine ⟨⟨port, ?_, declared⟩, seeks'.label_eq, ?_⟩
  · rw [h.port?_settle type seeks.label_eq seeks.none_found, seeks'.label_eq,
      if_neg fun hc => apart (Option.some.inj hc).symm]
    exact hport
  · exact (if_neg (Ne.symm apart)).trans seeks'.none_found

theorem groups_settle_settle (h : c.Agrees a) (seeks : c.Seeks a key label)
    (seeks' : c.Seeks a other label') (apart : label ≠ label') {root root' : Slot}
    (hroot : c.groups.StandsFor root label) (hroot' : c.groups.StandsFor root' label')
    (type type' : String) :
    ((c.settle key type).2.settle other type').2.groups =
      (c.groups.pinned root type).pinned root' type' := by
  have hfirst := h.groups_settle seeks hroot type
  have hstands : (c.settle key type).2.groups.StandsFor root' label' := by
    rw [hfirst]
    exact Groups.Represents.standsFor_pinned.mpr hroot'
  rw [(h.settle_agrees seeks type).groups_settle (h.seeks_after seeks seeks' apart type) hstands,
    hfirst]

theorem port?_settle_settle (h : c.Agrees a) (seeks : c.Seeks a key label)
    (seeks' : c.Seeks a other label') (apart : label ≠ label') (type type' : String)
    (port : PortKey) :
    ((c.settle key type).2.settle other type').2.port? port =
      if a.label? port = some label' then (c.port? port).map (·.showing (.concrete type'))
      else if a.label? port = some label then (c.port? port).map (·.showing (.concrete type))
      else c.port? port := by
  have hafter := h.settle_agrees seeks type
  have hseeks := h.seeks_after seeks seeks' apart type
  have hlabel (key : PortKey) : (a.pin label type).label? key = a.label? key := rfl
  rw [hafter.port?_settle type' hseeks.label_eq hseeks.none_found,
    h.port?_settle type seeks.label_eq seeks.none_found, hlabel]
  by_cases hport : a.label? port = some label'
  · have hother : a.label? port ≠ some label := fun hc =>
      apart (Option.some.inj (hc.symm.trans hport))
    rw [if_pos hport, if_pos hport, if_neg hother]
    rfl
  · rw [if_neg hport, if_neg hport]
    rfl

theorem settle_comm (h : c.Agrees a) (seeks : c.Seeks a key label)
    (seeks' : c.Seeks a other label') (apart : label ≠ label') (type type' : String) :
    ((c.settle key type).2.settle other type').2 = ((c.settle other type').2.settle key type).2 := by
  have hone : c.SameRest ((c.settle key type).2.settle other type').2 :=
    SameRest.trans (c.settle_rest key type) ((c.settle key type).2.settle_rest other type')
  have htwo : c.SameRest ((c.settle other type').2.settle key type).2 :=
    SameRest.trans (c.settle_rest other type') ((c.settle other type').2.settle_rest key type)
  apply hone.eq htwo
  · apply Std.ExtTreeMap.ext_getElem?
    intro port
    have hports := h.port?_settle_settle seeks seeks' apart type type' port
    have hports' := h.port?_settle_settle seeks' seeks (Ne.symm apart) type' type port
    refine hports.trans (Eq.trans ?_ hports'.symm)
    -- No port is of both classes.
    by_cases hport : a.label? port = some label'
    · have hother : a.label? port ≠ some label := fun hc =>
        apart (Option.some.inj (hc.symm.trans hport))
      rw [if_pos hport, if_neg hother, if_pos hport]
    · rw [if_neg hport, if_neg hport]
  · -- There are two pins to write, on two roots.
    obtain ⟨slot, -, -, hroot⟩ := h.represents.slot_of_label seeks.label_eq
    obtain ⟨slot', -, -, hroot'⟩ := h.represents.slot_of_label seeks'.label_eq
    have hroots : c.groups.forest.parent slot ≠ c.groups.forest.parent slot' := fun hc =>
      apart (h.represents.label_eq (hc ▸ hroot) hroot')
    rw [h.groups_settle_settle seeks seeks' apart hroot hroot',
      h.groups_settle_settle seeks' seeks (Ne.symm apart) hroot' hroot]
    exact congrArg (fun forest => { c.groups with forest })
      (Forest.setPin_comm _ hroots type type')

theorem resolve_port_apart (h : c.Agrees a) (early : c.state ≠ .initialized)
    (apart : ¬ c.Classmates key other) (proposed : DataType) :
    (c.resolve key proposed).2.port? other = c.port? other := by
  rw [h.resolve_port early, if_neg fun hc => apart hc.symm]
  simp [Port.offered_none]

theorem resolve_fst_apart (h : c.Agrees a) (early : c.state ≠ .initialized)
    (apart : ¬ c.Classmates key other) (proposed proposed' : DataType) :
    ((c.resolve key proposed).2.resolve other proposed').1 = (c.resolve other proposed').1 := by
  obtain ⟨a', hafter⟩ := h.resolve key proposed
  rw [hafter.resolve_fst, h.resolve_fst]
  exact reply_congr (c.resolve_sameRest key proposed) (.refl c)
    (h.resolve_port_apart early apart proposed) proposed'

theorem resolve_snd_apart (h : c.Agrees a) (early : c.state ≠ .initialized)
    (apart : ¬ c.Classmates key other) (proposed proposed' : DataType) :
    ((c.resolve key proposed).2.resolve other proposed').2 =
      (c.resolve key proposed).2.finding other (c.settles? other proposed') := by
  obtain ⟨a', hafter⟩ := h.resolve key proposed
  have hsettles := settles?_congr (c.resolve_sameRest key proposed)
    (h.resolve_port_apart early apart proposed) proposed'
  rw [hafter.resolve_snd, hsettles]

theorem resolve_comm (h : c.Agrees a) (early : c.state ≠ .initialized)
    (apart : ¬ c.Classmates key other) (proposed proposed' : DataType) :
    ((c.resolve key proposed).2.resolve other proposed').2 =
      ((c.resolve other proposed').2.resolve key proposed).2 := by
  have apart' : ¬ c.Classmates other key := fun hc => apart hc.symm
  rw [h.resolve_snd_apart early apart, h.resolve_snd_apart early apart', h.resolve_snd,
    h.resolve_snd]
  cases hsettles : c.settles? key proposed with
  | none => rfl
  | some type =>
    cases hsettles' : c.settles? other proposed' with
    | none => rfl
    | some type' =>
      obtain ⟨label, seeks⟩ := h.seeks_of_settles hsettles
      obtain ⟨label', seeks'⟩ := h.seeks_of_settles hsettles'
      have hlabels : label ≠ label' := by
        rintro rfl
        exact apart ((h.label_iff seeks.label_eq other).mp seeks'.label_eq)
      exact h.settle_comm seeks seeks' hlabels type type'

theorem answers_apart (h : c.Agrees a) (early : c.state ≠ .initialized)
    (apart : ¬ c.Classmates key other) (proposed proposed' : DataType) (rest : Calls) :
    c.answers ((key, proposed) :: (other, proposed') :: rest) =
      (c.resolve key proposed).1 :: (c.resolve other proposed').1 ::
        ((c.resolve key proposed).2.resolve other proposed').2.answers rest := by
  rw [answers, answers, h.resolve_fst_apart early apart]

/-- The classes are those of the start still when the two proposals come. -/
theorem exchange (h : c.Agrees a) (early : c.state ≠ .initialized) (before : Calls)
    (apart : ¬ c.Classmates key other) (proposed proposed' : DataType) (rest : Calls) :
    ∃ replies reply reply' replies', replies.length = before.length ∧
      c.answers (before ++ (key, proposed) :: (other, proposed') :: rest) =
        replies ++ reply :: reply' :: replies' ∧
      c.answers (before ++ (other, proposed') :: (key, proposed) :: rest) =
        replies ++ reply' :: reply :: replies' ∧
      c.resolveAll (before ++ (other, proposed') :: (key, proposed) :: rest) =
        c.resolveAll (before ++ (key, proposed) :: (other, proposed') :: rest) := by
  have hbefore := h.negotiated early before
  have hlength := c.length_answers before
  obtain ⟨a', hmid⟩ := hbefore.agrees
  have hearly : (c.resolveAll before).state ≠ .initialized := hbefore.sameRest.state_eq ▸ early
  have hclasses := classmates_congr hbefore.tagOf?_eq
  have hone : ¬ (c.resolveAll before).Classmates key other := mt (hclasses key other).mp apart
  have htwo : ¬ (c.resolveAll before).Classmates other key := fun hc => hone hc.symm
  have hcomm := hmid.resolve_comm hearly hone proposed proposed'
  have hreplies := hmid.answers_apart hearly hone proposed proposed' rest
  have hreplies' := hmid.answers_apart hearly htwo proposed' proposed rest
  rw [← hcomm] at hreplies'
  refine ⟨c.answers before, _, _, _, hlength,
    (c.answers_append before _).trans (congrArg (c.answers before ++ ·) hreplies),
    (c.answers_append before _).trans (congrArg (c.answers before ++ ·) hreplies'), ?_⟩
  rw [resolveAll_append, resolveAll_append, resolveAll, resolveAll, resolveAll, resolveAll, hcomm]

end Agrees

end Core

namespace Process

variable {σ : Type}

def setTypes (p : Process σ) (edges : Edges) :
    Core.Calls → List (Except ProcessError Bool) × Process σ × Edges
  | [] => ([], p, edges)
  | (key, proposed) :: rest =>
    let (reply, after, edges) := p.setType edges key proposed
    let (replies, last) := after.setTypes edges rest
    (reply :: replies, last)

theorem setTypes_eq {p : Process σ} (defers : p.plugin.Defers) (edges : Edges)
    (calls : Core.Calls) :
    p.setTypes edges calls =
      (p.core.answers calls, { p with core := p.core.resolveAll calls }, edges) := by
  induction calls generalizing p with
  | nil => rfl
  | cons call rest ih =>
    obtain ⟨key, proposed⟩ := call
    rw [setTypes, setType_eq defers]
    dsimp only
    have hrest := ih (p := { p with core := (p.core.resolve key proposed).2 }) defers
    rw [hrest]
    rfl

/-- After any proposals to a process that leaves its types to the core, every port shows the type
that it had found before, or else the first named type that was proposed for its class, or else its
sentinel. A reply depends on what was proposed for the class of the port before. Two proposals for
different classes, one after the other, can be exchanged, and their replies with them. All this holds
as far as there are slots for all declarations. -/
theorem setTypes_negotiate {p : Process σ} (reached : p.Reached) (defers : p.plugin.Defers)
    (early : p.core.state ≠ .initialized) (few : p.core.groups.forest.size < UInt32.size)
    (edges : Edges) :
    (∀ calls key, (p.setTypes edges calls).2.1.core.port? key =
        (p.core.port? key).map fun port =>
          port.showing (port.typeAfter (p.core.first? key calls))) ∧
      (∀ before key proposed rest,
        (p.setTypes edges (before ++ (key, proposed) :: rest)).1[before.length]? =
          some ((p.setTypes edges (before.filter fun call => p.core.Classmates key call.1)).2.1.setType
            edges key proposed).1) ∧
      ∀ before key other proposed proposed' rest, ¬ p.core.Classmates key other →
        ∃ replies reply reply' replies' last, replies.length = before.length ∧
          p.setTypes edges (before ++ (key, proposed) :: (other, proposed') :: rest) =
            (replies ++ reply :: reply' :: replies', last) ∧
          p.setTypes edges (before ++ (other, proposed') :: (key, proposed) :: rest) =
            (replies ++ reply' :: reply :: replies', last) := by
  obtain ⟨a, ha⟩ := reached.agrees few
  refine ⟨fun calls key => ?_, fun before key proposed rest => ?_, ?_⟩
  · rw [setTypes_eq defers]
    refine ((ha.negotiated early calls).port_eq key).trans (Option.map_congr fun port hport => ?_)
    exact ha.offered_eq hport _
  · rw [setTypes_eq defers, setTypes_eq defers]
    dsimp only
    generalize hown : p.core.resolveAll (before.filter fun call => p.core.Classmates key call.1) = own
    have hreply := setType_eq (p := { p with core := own }) defers edges key proposed
    rw [hreply, ← hown]
    have hlength := p.core.length_answers before
    rw [Core.answers_append, List.getElem?_append_right (Nat.le_of_eq hlength), hlength,
      Nat.sub_self]
    exact congrArg some (ha.answer_own early before key proposed)
  · intro before key other proposed proposed' rest apart
    obtain ⟨replies, reply, reply', replies', hlength, hone, htwo, hlast⟩ :=
      ha.exchange early before apart proposed proposed' rest
    let last := p.core.resolveAll (before ++ (key, proposed) :: (other, proposed') :: rest)
    refine ⟨replies, reply, reply', replies', ({ p with core := last }, edges), hlength, ?_, ?_⟩
    · rw [setTypes_eq defers, hone]
    · rw [setTypes_eq defers, htwo, hlast]

/-- A plugin with two outputs whose types are found apart. -/
def typeFinder : Plugin Unit :=
  let info : PortInfo := ⟨.dataDependent, .empty, "", .one⟩
  { Plugin.idle Unit with
    declare := do
      Reaction.request (.declare (.output "left") info)
      Reaction.request (.declare (.output "right") info) }

def newFinder : Process Unit := (create ∅ typeFinder () .empty).2.1

def offers : Core.Calls :=
  [(.output "left", .any), (.output "left", .concrete "image"), (.output "right", .concrete "text"),
    (.output "left", .concrete "sound")]

/-- The left output takes the first named type, and it may as well come after that of the right. -/
theorem setTypes_negotiate_finder :
    newFinder.Reached ∧ newFinder.plugin.Defers ∧ newFinder.core.state ≠ .initialized ∧
      newFinder.core.groups.forest.size < UInt32.size ∧
      ¬ newFinder.core.Classmates (.output "left") (.output "right") ∧
      ((newFinder.setTypes .empty offers).2.1.core.port? (.output "left")).map (·.info.type) =
        some (.concrete "image") ∧
      (newFinder.setTypes .empty [(.output "left", .concrete "image"),
          (.output "right", .concrete "text")]).2 =
        (newFinder.setTypes .empty [(.output "right", .concrete "text"),
          (.output "left", .concrete "image")]).2 := by
  have reached : newFinder.Reached := ⟨∅, (), .empty, [], by decide +kernel, rfl⟩
  have defers : newFinder.plugin.Defers := fun _ _ => rfl
  have early : newFinder.core.state ≠ .initialized := by
    decide +kernel
  have few : newFinder.core.groups.forest.size < UInt32.size := by
    decide +kernel
  have apart : ¬ newFinder.core.Classmates (.output "left") (.output "right") := by
    decide +kernel
  have htype : (newFinder.core.port? (.output "left")).map (fun port =>
      port.typeAfter (newFinder.core.first? (.output "left") offers)) = some (.concrete "image") := by
    decide +kernel
  obtain ⟨hports, -, hswap⟩ := setTypes_negotiate reached defers early few .empty
  obtain ⟨replies, reply, reply', replies', last, -, hone, htwo⟩ :=
    hswap [] (.output "left") (.output "right") (.concrete "image") (.concrete "text") [] apart
  refine ⟨reached, defers, early, few, apart, ?_, ?_⟩
  · rw [hports, Option.map_map]
    exact htype
  · exact (congrArg Prod.snd hone).trans (congrArg Prod.snd htwo).symm

/-- The heartbeat takes the type that the output has found, but no type before. -/
theorem newCrowd_replies {count : Nat} (full : 1 + count = UInt32.size) :
    ((newCrowd count).setTypes .empty [(.output "out", .concrete "image"),
        (.output Core.heartbeat, .concrete "image")]).1 = [.ok true, .ok true] ∧
      ∃ e, ((newCrowd count).setTypes .empty [(.output Core.heartbeat, .concrete "image"),
        (.output "out", .concrete "image")]).1 = [.error e, .ok true] := by
  obtain ⟨after, hresolve, hafter⟩ := newCrowd_resolve full "image"
  have early := newCrowd_early count
  have hports := (newCrowd_ports count).2
  have hlate : after.state ≠ .initialized := by
    have htouched := (newCrowd count).core.resolve_touched (.output "out") (.concrete "image")
    rw [hresolve] at htouched
    exact htouched.state_eq ▸ early
  have hshown : after.resolve (.output Core.heartbeat) (.concrete "image") = (.ok true, after) := by
    rw [Core.resolve, Core.checkProposal, if_neg hlate, hafter]
    rfl
  have hrefused : ∃ e, (newCrowd count).core.resolve (.output Core.heartbeat) (.concrete "image") =
      (.error e, (newCrowd count).core) := by
    rw [Core.resolve, Core.checkProposal, if_neg early, hports]
    exact ⟨_, rfl⟩
  obtain ⟨e, hrefused⟩ := hrefused
  refine ⟨?_, e, ?_⟩
  · rw [setTypes_eq (newCrowd_defers _), Core.answers, Core.answers, Core.answers, hresolve, hshown]
  · rw [setTypes_eq (newCrowd_defers _), Core.answers, Core.answers, Core.answers, hrefused, hresolve]

/-- Without a free slot the order of two proposals matters, although they are made to ports of
different classes. -/
theorem setTypes_order_matters :
    crowded.Reached ∧ crowded.plugin.Defers ∧ crowded.core.state ≠ .initialized ∧
      ¬ crowded.core.Classmates (.output "out") (.output Core.heartbeat) ∧
      (crowded.setTypes .empty [(.output "out", .concrete "image"),
        (.output Core.heartbeat, .concrete "image")]).1 = [.ok true, .ok true] ∧
      ∃ e, (crowded.setTypes .empty [(.output Core.heartbeat, .concrete "image"),
        (.output "out", .concrete "image")]).1 = [.error e, .ok true] := by
  have full : 1 + (UInt32.size - 1) = UInt32.size := by decide
  rw [crowded]
  exact ⟨newCrowd_reached _, newCrowd_defers _, newCrowd_early _, newCrowd_apart _,
    newCrowd_replies full⟩

end Process

end Dataflow
