import Dataflow.Proofs.Core.Hushed

/-!
# Near worlds

Two worlds may differ in edges that are out of sight: outputs are bound to them in one world and not,
or less often, in the other. As long as no input is bound to such an edge and nobody counts the edges
of an output, both worlds answer alike, and stay as near as they were. They also send the same, under
the same stamps, through all that is bound in both.
-/

namespace Dataflow

/-! ## Edges left out -/

/-- Whether a list of edges is left of another one when some that are hidden are left out. -/
structure Spared (hidden : EdgeId → Prop) (less full : List EdgeId) : Prop where
  sublist : less.Sublist full
  count_eq : ∀ {edge}, ¬ hidden edge → less.count edge = full.count edge

namespace Spared

variable {hidden : EdgeId → Prop} {less full : List EdgeId}

theorem refl (edges : List EdgeId) : Spared hidden edges edges := ⟨.refl edges, fun _ => rfl⟩

theorem append (h : Spared hidden less full) (edge : EdgeId) :
    Spared hidden (less ++ [edge]) (full ++ [edge]) where
  sublist := h.sublist.append_right [edge]
  count_eq seen := by
    rw [List.count_append, List.count_append, h.count_eq seen]

theorem append_hidden (h : Spared hidden less full) {edge : EdgeId} (unseen : hidden edge) :
    Spared hidden less (full ++ [edge]) where
  sublist := h.sublist.trans (List.sublist_append_left full [edge])
  count_eq {other} seen := by
    have hother : other ∉ [edge] := fun hmem => seen (List.mem_singleton.mp hmem ▸ unseen)
    rw [List.count_append, List.count_eq_zero_of_not_mem hother, Nat.add_zero, h.count_eq seen]

end Spared

/-- Whether the same datum goes from the same output under the same stamp, and all that is missing are
bindings to hidden edges. -/
structure Dispatch.Spares (hidden : EdgeId → Prop) (less full : Dispatch) : Prop where
  output_eq : less.output = full.output
  token_eq : less.token = full.token
  edges : Spared hidden less.edges full.edges

/-- An edge that is not hidden gets the same. -/
theorem Dispatch.onto_eq {hidden : EdgeId → Prop} {less full : List Dispatch}
    (h : List.Forall₂ (Spares hidden) less full) {edge : EdgeId} (seen : ¬ hidden edge) :
    less.flatMap (·.onto edge) = full.flatMap (·.onto edge) := by
  induction h with
  | nil => rfl
  | cons hhere _ ih =>
    rw [List.flatMap_cons, List.flatMap_cons, ih, onto, onto, hhere.edges.count_eq seen, hhere.token_eq]

namespace World

/-! ## Requests to one core over different edges -/

theorem pop_fst (edges : Edges) (edge : EdgeId) : (edges.pop edge).1 = (edges.queue edge).head? := by
  rw [Edges.pop]
  cases edges.queue edge <;> rfl

section

variable {c : Core} {edges edges' : Edges}
  (agree : ∀ {name edge}, inputEdge? ⟨c, edges⟩ name = some edge →
    edges.queue edge = edges'.queue edge)

include agree

theorem grab_of_core (name : String) :
    (grab ⟨c, edges⟩ name).1 = (grab ⟨c, edges'⟩ name).1 := by
  rw [grab, grab]
  cases hport : c.port? (.input name) with
  | none => rfl
  | some port =>
    dsimp only
    cases hedges : port.edges with
    | nil => rfl
    | cons edge rest =>
      have hbound : inputEdge? ⟨c, edges⟩ name = some edge := by
        rw [inputEdge?, hport, Option.bind_some, hedges, List.head?_cons]
      dsimp only
      rw [pop_fst, pop_fst, agree hbound]

theorem grabAs_of_core (name : String) (kind : Payload.Kind) :
    (grabAs ⟨c, edges⟩ name kind).1 = (grabAs ⟨c, edges'⟩ name kind).1 := by
  have hresult := grab_of_core agree name
  have hcore := (grab_core ⟨c, edges⟩ name).trans (grab_core ⟨c, edges'⟩ name).symm
  rw [grabAs, grabAs]
  generalize grab ⟨c, edges⟩ name = got at hresult hcore
  generalize grab ⟨c, edges'⟩ name = got' at hresult hcore
  obtain ⟨result, after⟩ := got
  obtain ⟨result', after'⟩ := got'
  obtain rfl : result = result' := hresult
  cases result with
  | error e => rfl
  | ok token? =>
    cases token? with
    | none => rfl
    | some token =>
      dsimp only at hcore ⊢
      rw [hcore]
      cases token.datum.get? kind <;> rfl

theorem peek_of_core (name : String) (index : Nat) :
    peek ⟨c, edges⟩ name index = peek ⟨c, edges'⟩ name index := by
  rw [peek, peek]
  cases hport : c.port? (.input name) with
  | none => rfl
  | some port =>
    dsimp only
    cases hedge : port.edges.head? with
    | none => rfl
    | some edge =>
      have hbound : inputEdge? ⟨c, edges⟩ name = some edge := by
        rw [inputEdge?, hport, Option.bind_some, hedge]
      rw [Option.bind_some, Option.bind_some, Edges.peek?, Edges.peek?, agree hbound]

/-- What a core answers, and what becomes of it, depends on the edges of its inputs only. -/
theorem perform_of_core (r : Request) :
    (perform ⟨c, edges⟩ r).1 = (perform ⟨c, edges'⟩ r).1 ∧
      (perform ⟨c, edges⟩ r).2.core = (perform ⟨c, edges'⟩ r).2.core := by
  cases r with
  | peek name index => exact ⟨peek_of_core agree name index, rfl⟩
  | grab name =>
    exact ⟨grab_of_core agree name,
      (grab_core ⟨c, edges⟩ name).trans (grab_core ⟨c, edges'⟩ name).symm⟩
  | grabAs name kind =>
    exact ⟨grabAs_of_core agree name kind,
      (grabAs_core ⟨c, edges⟩ name kind).trans (grabAs_core ⟨c, edges'⟩ name kind).symm⟩
  | grabInput name kind =>
    refine ⟨?_, (grabInput_core ⟨c, edges⟩ name kind).trans (grabInput_core ⟨c, edges'⟩ name kind).symm⟩
    have hgrab := grabAs_of_core agree name (.scalar kind)
    change (grabInput ⟨c, edges⟩ name kind).1 = (grabInput ⟨c, edges'⟩ name kind).1
    rw [grabInput, grabInput]
    cases c.port? (.input name) with
    | none => rfl
    | some port =>
      dsimp only
      split
      · rfl
      · exact congrArg ((·.bind scalarOf?) <$> ·) hgrab
  | push name datum =>
    refine ⟨?_, (push_core ⟨c, edges⟩ name datum).trans (push_core ⟨c, edges'⟩ name datum).symm⟩
    change (push ⟨c, edges⟩ name datum).1 = (push ⟨c, edges'⟩ name datum).1
    rw [push, push]
    cases c.port? (.output name) <;> rfl
  | name | typeName | state | isComplete | level | portNames _ | config | debug | info _ | hasEdge _
  | countEdges _ | nextStamp _ | value _ _ | declare _ _ | remove _ | setFrequency _ _
  | declareKey _ _ | setLevel _ | markComplete | resolve _ _ => exact ⟨rfl, rfl⟩

end

/-! ## Worlds that differ in what outputs are bound to -/

/-- Whether two worlds are the same but for some edges, which are out of sight: outputs may be bound
to more of them in the first one, and other data may be on them. No input is bound to one. -/
structure Near (hidden : EdgeId → Prop) (w other : World) : Prop where
  core_eq : w.core.hushed = other.core.hushed
  spared : ∀ {name port port'}, w.core.port? (.output name) = some port →
    other.core.port? (.output name) = some port' → Spared hidden port'.edges port.edges
  queue_eq : ∀ {edge}, ¬ hidden edge → w.edges.queue edge = other.edges.queue edge
  inputs : ∀ {name port edge}, w.core.port? (.input name) = some port → edge ∈ port.edges →
    ¬ hidden edge

namespace Near

variable {hidden : EdgeId → Prop} {w other : World}

theorem refl (inputs : ∀ {name port edge}, w.core.port? (.input name) = some port →
    edge ∈ port.edges → ¬ hidden edge) : w.Near hidden w where
  core_eq := rfl
  spared hport hport' := by
    rw [Option.some.inj (hport.symm.trans hport')]
    exact .refl _
  queue_eq _ := rfl
  inputs := inputs

/-- What does not show the edges of outputs is the same in both worlds. -/
theorem view_eq {β : Type} (h : w.Near hidden other) (view : Core → β)
    (blind : ∀ c : Core, view c.hushed = view c) : view w.core = view other.core := by
  rw [← blind w.core, h.core_eq, blind]

theorem input_eq (h : w.Near hidden other) (name : String) :
    w.core.port? (.input name) = other.core.port? (.input name) :=
  h.view_eq (·.port? (.input name)) fun c => c.port?_hushed_input name

theorem inputEdge?_eq (h : w.Near hidden other) (name : String) :
    w.inputEdge? name = other.inputEdge? name := by
  rw [inputEdge?, inputEdge?, h.input_eq]

theorem sight (h : w.Near hidden other) {name : String} {edge : EdgeId}
    (hbound : w.inputEdge? name = some edge) : ¬ hidden edge := by
  obtain ⟨port, hport, hedge⟩ := Option.bind_eq_some_iff.mp hbound
  exact h.inputs hport (List.mem_of_head? hedge)

/-- The outputs of both worlds go in pairs, each at the stamp of the other. -/
theorem output_cases (h : w.Near hidden other) (name : String) :
    w.core.port? (.output name) = none ∧ other.core.port? (.output name) = none ∨
      ∃ port port', w.core.port? (.output name) = some port ∧
        other.core.port? (.output name) = some port' ∧ port.stamp = port'.stamp := by
  have hport := congrArg (Core.port? · (.output name)) h.core_eq
  simp only [Core.port?_hushed] at hport
  cases hleft : w.core.port? (.output name) with
  | none =>
    rw [hleft] at hport
    exact .inl ⟨rfl, Option.map_eq_none_iff.mp hport.symm⟩
  | some port =>
    rw [hleft, Option.map_some, eq_comm] at hport
    obtain ⟨port', hright, hsame⟩ := Option.map_eq_some_iff.mp hport
    exact .inr ⟨port, port', rfl, hright, (congrArg Port.stamp hsame).symm⟩

/-- The same is sent in both worlds, but for what goes to hidden edges in the first one only. -/
theorem dispatched (h : w.Near hidden other) (r : Request) :
    List.Forall₂ (Dispatch.Spares hidden) (other.dispatched r) (w.dispatched r) := by
  cases r with
  | push name datum =>
    rw [World.dispatched, World.dispatched]
    rcases h.output_cases name with ⟨hport, hport'⟩ | ⟨port, port', hport, hport', hstamp⟩
    · rw [hport, hport']
      exact .nil
    · rw [hport, hport']
      exact .cons ⟨rfl, by rw [hstamp], h.spared hport hport'⟩ .nil
  | _ => exact .nil

theorem taken_eq (h : w.Near hidden other) (r : Request) {edge : EdgeId} (seen : ¬ hidden edge) :
    w.taken r edge = other.taken r edge := by
  cases r with
  | grab name | grabAs name _ | grabInput name _ =>
    unfold taken
    dsimp only
    rw [h.inputEdge?_eq, h.queue_eq seen]
  | _ => rfl

theorem placed_eq (h : w.Near hidden other) (r : Request) {edge : EdgeId} (seen : ¬ hidden edge) :
    w.placed r edge = other.placed r edge := by
  rw [placed_eq_dispatched, placed_eq_dispatched, Dispatch.onto_eq (h.dispatched r) seen]

/-- A request that does not ask for the edges of outputs is answered alike. -/
theorem reply_eq (h : w.Near hidden other) {r : Request} (blind : r.Blind) :
    (w.perform r).1 = (other.perform r).1 ∧
      (w.perform r).2.core.hushed = (other.perform r).2.core.hushed := by
  obtain ⟨hreply, hcore⟩ := w.perform_hushed blind
  obtain ⟨hreply', hcore'⟩ := other.perform_hushed blind
  have agree {name : String} {edge : EdgeId}
      (hbound : inputEdge? ⟨w.core.hushed, w.edges⟩ name = some edge) :
      w.edges.queue edge = other.edges.queue edge :=
    h.queue_eq (h.sight ((w.inputEdge?_hushed name).symm.trans hbound))
  obtain ⟨hsame, hsame'⟩ := perform_of_core agree r
  -- Both are hushed first, and then have one core.
  have hother : other.hushed = ⟨w.core.hushed, other.edges⟩ := by
    rw [h.core_eq]
    rfl
  rw [hother] at hreply' hcore'
  exact ⟨hreply.symm.trans (hsame.trans hreply'), hcore.symm.trans (hsame'.trans hcore')⟩

theorem perform (h : w.Near hidden other) {r : Request} (blind : r.Blind) :
    (w.perform r).2.Near hidden (other.perform r).2 where
  core_eq := (h.reply_eq blind).2
  spared {name after after'} hafter hafter' := by
    have hfollows := w.perform_follows r hafter
    have hfollows' := other.perform_follows r hafter'
    rcases h.output_cases name with ⟨hport, hport'⟩ | ⟨port, port', hport, hport', -⟩
    · -- A new output is bound to nothing.
      rw [hport] at hfollows
      rw [hport'] at hfollows'
      rw [hfollows.of_none.2.1, hfollows'.of_none.2.1]
      exact .refl _
    · rw [hport] at hfollows
      rw [hport'] at hfollows'
      rw [hfollows.of_some.1, hfollows'.of_some.1]
      exact h.spared hport hport'
  queue_eq {edge} seen := by
    have hqueue := w.perform_queue r edge
    have hqueue' := other.perform_queue r edge
    rw [h.taken_eq r seen, h.placed_eq r seen, h.queue_eq seen, ← hqueue'] at hqueue
    exact List.append_cancel_left hqueue
  inputs {name port edge} hport hedge := by
    have hstems := (w.perform_touched r).stems hport
    generalize hbefore : w.core.port? (.input name) = before at hstems
    cases hstems with
    | fresh bare =>
      rw [bare] at hedge
      exact absurd hedge List.not_mem_nil
    | kept shape_eq =>
      have hedges := (Prod.mk.inj (Prod.mk.inj shape_eq).2).2
      exact h.inputs hbefore (hedges ▸ hedge)

/-! ## What is done to a world from outside -/

theorem connect_result (h : w.Near hidden other) (key : PortKey) (edge? : Option EdgeId) :
    (w.core.connect key edge?).1 = (other.core.connect key edge?).1 :=
  h.view_eq (fun c => (c.connect key edge?).1) fun c => c.connect_hushed key edge?

/-- The same edge is bound in both worlds. -/
theorem bind (h : w.Near hidden other) (key : PortKey) (edge : EdgeId)
    (inputs : ∀ {name port bound},
      (w.core.modifyPort key fun port => { port with edges := port.edges ++ [edge] }).port? (.input name) =
        some port → bound ∈ port.edges → ¬ hidden bound) :
    Near hidden
      ⟨w.core.modifyPort key fun port => { port with edges := port.edges ++ [edge] }, w.edges⟩
      ⟨other.core.modifyPort key fun port => { port with edges := port.edges ++ [edge] },
        other.edges⟩ where
  core_eq := by
    obtain ⟨direction, name⟩ := key
    cases direction with
    | input =>
      dsimp only
      rw [Core.hushed_bind_input, Core.hushed_bind_input, h.core_eq]
    | output =>
      dsimp only
      rw [Core.hushed_bind_output, Core.hushed_bind_output, h.core_eq]
  spared {name port port'} hport hport' := by
    dsimp only at hport hport'
    rw [Core.port?_modifyPort] at hport hport'
    by_cases hname : PortKey.output name = key
    · rw [if_pos hname] at hport hport'
      obtain ⟨before, hbefore, rfl⟩ := Option.map_eq_some_iff.mp hport
      obtain ⟨before', hbefore', rfl⟩ := Option.map_eq_some_iff.mp hport'
      exact (h.spared hbefore hbefore').append edge
    · rw [if_neg hname] at hport hport'
      exact h.spared hport hport'
  queue_eq := h.queue_eq
  inputs := inputs

/-- A hidden edge is bound to an output, in the first of the worlds only. -/
theorem bind_hidden (h : w.Near hidden other) (name : String) {edge : EdgeId} (unseen : hidden edge) :
    Near hidden
      ⟨w.core.modifyPort (.output name) fun port => { port with edges := port.edges ++ [edge] },
        w.edges⟩ other where
  core_eq := (w.core.hushed_bind_output name edge).trans h.core_eq
  spared {name' port port'} hport hport' := by
    dsimp only at hport
    rw [Core.port?_modifyPort] at hport
    by_cases hname : PortKey.output name' = .output name
    · rw [if_pos hname] at hport
      obtain ⟨before, hbefore, rfl⟩ := Option.map_eq_some_iff.mp hport
      exact (h.spared hbefore hport').append_hidden unseen
    · rw [if_neg hname] at hport
      exact h.spared hport hport'
  queue_eq := h.queue_eq
  inputs {name' port bound} hport := by
    dsimp only at hport
    rw [Core.port?_modifyPort, if_neg nofun] at hport
    exact h.inputs hport

theorem feed (h : w.Near hidden other) (edge : EdgeId) (token : Stamped) :
    Near hidden ⟨w.core, w.edges.push edge token⟩ ⟨other.core, other.edges.push edge token⟩ where
  core_eq := h.core_eq
  spared := h.spared
  queue_eq {id} seen := by
    dsimp only
    by_cases hid : id = edge
    · rw [hid, Edges.queue_push_self, Edges.queue_push_self, h.queue_eq (hid ▸ seen)]
    · rw [Edges.queue_push_of_ne _ _ hid, Edges.queue_push_of_ne _ _ hid, h.queue_eq seen]
  inputs := h.inputs

theorem take (h : w.Near hidden other) (edge : EdgeId) :
    Near hidden ⟨w.core, (w.edges.pop edge).2⟩ ⟨other.core, (other.edges.pop edge).2⟩ where
  core_eq := h.core_eq
  spared := h.spared
  queue_eq {id} seen := by
    have hleft := Edges.queue_pop w.edges edge id
    have hright := Edges.queue_pop other.edges edge id
    have hboth := hleft.trans ((h.queue_eq seen).trans hright.symm)
    rw [h.queue_eq seen] at hboth
    exact List.append_cancel_left hboth
  inputs := h.inputs

/-- The ports are left alone in both worlds. -/
theorem of_ports (h : w.Near hidden other) {after after' : Core}
    (core_eq : after.hushed = after'.hushed) (ports_eq : after.ports = w.core.ports)
    (ports_eq' : after'.ports = other.core.ports) :
    Near hidden ⟨after, w.edges⟩ ⟨after', other.edges⟩ where
  core_eq := core_eq
  spared {name port port'} hport hport' := by
    dsimp only at hport hport'
    rw [Core.port?, ports_eq] at hport
    rw [Core.port?, ports_eq'] at hport'
    exact h.spared hport hport'
  queue_eq := h.queue_eq
  inputs {name port edge} hport := by
    dsimp only at hport
    rw [Core.port?, ports_eq] at hport
    exact h.inputs hport

/-- No port is bound to anything in either world. -/
theorem of_bare (h : w.Near hidden other) {after after' : Core}
    (core_eq : after.hushed = after'.hushed)
    (bare : ∀ {key port}, after.port? key = some port → port.edges = [])
    (bare' : ∀ {key port}, after'.port? key = some port → port.edges = []) :
    Near hidden ⟨after, w.edges⟩ ⟨after', other.edges⟩ where
  core_eq := core_eq
  spared hport hport' := by
    rw [bare hport, bare' hport']
    exact .refl _
  queue_eq := h.queue_eq
  inputs hport hedge := by
    rw [bare hport] at hedge
    exact absurd hedge List.not_mem_nil

end Near

end World

end Dataflow
