import Dataflow.Proofs.Core.Touch

/-!
# Traffic

A request sends at most one datum, and takes at most one token. What an output sends, what is put on
an edge and what is taken from it is told here request by request, and adds up over a hook: what was
taken from an edge and what is left on it make up what was on it and what was put there
(`run_queue`), and the stamp of an output counts what it sent (`run_output`).
-/

namespace Dataflow

/-- Data under consecutive stamps. -/
def stampFrom (stamp : Stamp) : List Datum → List Stamped
  | [] => []
  | datum :: rest => ⟨stamp, datum⟩ :: stampFrom stamp.next rest

theorem stampFrom_append (stamp : Stamp) (data more : List Datum) :
    stampFrom stamp (data ++ more) = stampFrom stamp data ++ stampFrom (stamp + data.length) more := by
  induction data generalizing stamp with
  | nil => rfl
  | cons datum rest ih =>
    have hstamp : stamp.next + rest.length = stamp + (rest.length + 1) :=
      Nat.succ_add_eq_add_succ stamp rest.length
    rw [List.cons_append, stampFrom, stampFrom, ih, hstamp, List.cons_append, List.length_cons]

theorem map_stamp_stampFrom (stamp : Stamp) (data : List Datum) :
    (stampFrom stamp data).map Stamped.stamp = List.range' stamp data.length := by
  induction data generalizing stamp with
  | nil => rfl
  | cons datum rest ih => rw [stampFrom, List.map_cons, ih]; rfl

/-! ## One request -/

theorem Edges.queue_pop (edges : Edges) (id other : EdgeId) :
    (if id = other then (edges.queue other).head?.toList else []) ++ (edges.pop id).2.queue other =
      edges.queue other := by
  unfold Edges.pop
  by_cases h : id = other
  · subst h
    cases hqueue : edges.queue id <;> simp [hqueue]
  · rw [if_neg h, List.nil_append]
    cases edges.queue id with
    | nil => rfl
    | cons token rest => exact queue_setQueue_of_ne _ _ (Ne.symm h)

/-- A datum under its stamp, on its way from an output to the edges that the output is bound to. -/
structure Dispatch where
  output : String
  token : Stamped
  edges : List EdgeId

/-- What an edge gets of it: one token for every time that the edge is bound. -/
def Dispatch.onto (dispatch : Dispatch) (edge : EdgeId) : List Stamped :=
  .replicate (dispatch.edges.count edge) dispatch.token

namespace World

/-- What a request sends from an output. -/
def posted (w : World) (r : Request) (name : String) : List Datum :=
  match r with
  | .push port datum => if port = name ∧ (w.core.port? (.output name)).isSome then [datum] else []
  | _ => []

/-- What a request puts on an edge. -/
def placed (w : World) (r : Request) (edge : EdgeId) : List Stamped :=
  match r with
  | .push port datum => w.core.sent datum edge port
  | _ => []

/-- What a request puts on an edge from one output. -/
def delivered (w : World) (r : Request) (name : String) (edge : EdgeId) : List Stamped :=
  match r with
  | .push port datum => if port = name then w.core.sent datum edge port else []
  | _ => []

/-- What a request sends, from any output. -/
def dispatched (w : World) : Request → List Dispatch
  | .push name datum =>
    match w.core.port? (.output name) with
    | none => []
    | some port => [⟨name, ⟨port.stamp, datum⟩, port.edges⟩]
  | _ => []

theorem placed_eq_dispatched (w : World) (r : Request) (edge : EdgeId) :
    w.placed r edge = (w.dispatched r).flatMap (·.onto edge) := by
  cases r with
  | push name datum =>
    rw [placed, Core.sent, dispatched]
    cases w.core.port? (.output name) with
    | none => rfl
    | some port => exact (List.flatMap_singleton _ _).symm
  | _ => rfl

/-- What a request takes from an edge. -/
def taken (w : World) (r : Request) (edge : EdgeId) : List Stamped :=
  match r with
  | .grab port | .grabAs port _ | .grabInput port _ =>
    if w.inputEdge? port = some edge then (w.edges.queue edge).head?.toList else []
  | _ => []

theorem grab_queue (w : World) (port : String) (edge : EdgeId) :
    w.taken (.grab port) edge ++ (w.grab port).2.edges.queue edge = w.edges.queue edge := by
  unfold taken inputEdge? grab
  cases hport : w.core.port? (.input port) with
  | none => simp [hport]
  | some p =>
    cases hedges : p.edges with
    | nil => simp [hport, hedges]
    | cons bound rest =>
      simp only [hport, hedges, Option.bind_some, List.head?_cons, Option.some.injEq]
      exact w.edges.queue_pop bound edge

theorem grabAs_edges (w : World) (port : String) (kind : Payload.Kind) :
    (w.grabAs port kind).2.edges = (w.grab port).2.edges := by
  unfold grabAs
  generalize w.grab port = got
  obtain ⟨result, after⟩ := got
  cases result with
  | error e => rfl
  | ok token? =>
    cases token? with
    | none => rfl
    | some token =>
      dsimp only
      cases token.datum.get? kind <;> rfl

theorem grabInput_queue (w : World) (port : String) (kind : Scalar.Kind) (edge : EdgeId) :
    w.taken (.grabInput port kind) edge ++ (w.grabInput port kind).2.edges.queue edge =
      w.edges.queue edge := by
  have hgrab := w.grab_queue port edge
  unfold grabInput
  cases hport : w.core.port? (.input port) with
  | none => simp [taken, inputEdge?, hport]
  | some p =>
    dsimp only
    split
    · -- An unbound static input takes nothing.
      rename_i h
      simp [taken, inputEdge?, hport, h.1]
    · rw [← w.grabAs_edges port (.scalar kind)] at hgrab
      exact hgrab

/-- What is taken from an edge comes from its head, and what is put there goes to its end. -/
theorem perform_queue (w : World) (r : Request) (edge : EdgeId) :
    w.taken r edge ++ (w.perform r).2.edges.queue edge = w.edges.queue edge ++ w.placed r edge := by
  cases r with
  | push port datum => exact w.push_queue port datum edge
  | grab port => exact (w.grab_queue port edge).trans (List.append_nil _).symm
  | grabAs port kind =>
    have hgrab := w.grab_queue port edge
    rw [← w.grabAs_edges port kind] at hgrab
    exact hgrab.trans (List.append_nil _).symm
  | grabInput port kind => exact (w.grabInput_queue port kind edge).trans (List.append_nil _).symm
  | name | typeName | state | isComplete | level | portNames _ | config | debug | info _
  | hasEdge _ | countEdges _ | nextStamp _ | value _ _ | peek _ _ | declare _ _ | remove _
  | setFrequency _ _ | declareKey _ _ | setLevel _ | markComplete | resolve _ _ =>
    exact (List.append_nil _).symm

end World

/-! ## What becomes of an output -/

/-- Whether an output is new and bare, or the one that was there, by so many data farther on. -/
inductive Port.Follows : Option Port → Nat → Port → Prop
  | fresh {after : Port} (bare : after.edges = []) (first : after.stamp = .first) :
      Follows none 0 after
  | onward {port : Port} {count : Nat} {after : Port} (edges_eq : after.edges = port.edges)
      (stamp_eq : after.stamp = port.stamp + count) : Follows (some port) count after

theorem Port.Follows.of_none {count : Nat} {after : Port} (h : Port.Follows none count after) :
    count = 0 ∧ after.edges = [] ∧ after.stamp = .first := by
  cases h with
  | fresh bare first => exact ⟨rfl, bare, first⟩

theorem Port.Follows.of_some {port : Port} {count : Nat} {after : Port}
    (h : Port.Follows (some port) count after) :
    after.edges = port.edges ∧ after.stamp = port.stamp + count := by
  cases h with
  | onward edges_eq stamp_eq => exact ⟨edges_eq, stamp_eq⟩

namespace Core

/-- Whether all outputs follow from those that were there, without a datum sent. -/
def Silent (c after : Core) : Prop :=
  ∀ name port, after.port? (.output name) = some port →
    Port.Follows (c.port? (.output name)) 0 port

theorem silent_of_view {c after : Core}
    (h : ∀ key, (after.port? key).map (fun port => (port.edges, port.stamp)) =
      (c.port? key).map fun port => (port.edges, port.stamp)) : c.Silent after := by
  intro name port hport
  have hview := h (.output name)
  rw [hport, Option.map_some, eq_comm] at hview
  obtain ⟨before, hbefore, hsame⟩ := Option.map_eq_some_iff.mp hview
  obtain ⟨hedges, hstamp⟩ := Prod.mk.inj hsame
  rw [hbefore]
  exact .onward hedges.symm hstamp.symm

theorem Silent.refl (c : Core) : c.Silent c := silent_of_view fun _ => rfl

theorem silent_modifyPort (c : Core) (key : PortKey) {change : Port → Port}
    (h : ∀ port, (change port).edges = port.edges ∧ (change port).stamp = port.stamp) :
    c.Silent (c.modifyPort key change) :=
  silent_of_view (c.view_modifyPort (fun port => Prod.ext (h port).1 (h port).2) key)

theorem silent_declare (c : Core) (key : PortKey) (info : PortInfo) :
    c.Silent (c.declare key info).2 := by
  have hdeclared := c.declared key info
  generalize c.declare key info = attempt at hdeclared ⊢
  cases hdeclared with
  | late | known | unfit => exact .refl c
  | made early new fitting static =>
    intro name port hname
    rw [port?_withPort] at hname
    by_cases hkey : PortKey.output name = key
    · rw [if_pos hkey] at hname
      rw [hkey, new, ← Option.some.inj hname]
      exact .fresh rfl rfl
    · rw [if_neg hkey] at hname
      exact Silent.refl c name port hname

theorem silent_remove (c : Core) (key : PortKey) : c.Silent (c.remove key).2 := by
  have hremoved := c.removed key
  generalize c.remove key = attempt at hremoved ⊢
  cases hremoved with
  | reserved | late | absent => exact .refl c
  | made =>
    intro name port hname
    exact Silent.refl c name port (port_of_withoutPort hname).2

theorem silent_setFrequency (c : Core) (key : PortKey) (frequency : Frequency) :
    c.Silent (c.setFrequency key frequency).2 := by
  have hretimed := c.retimed key frequency
  generalize c.setFrequency key frequency = attempt at hretimed ⊢
  cases hretimed with
  | late | absent => exact .refl c
  | made => exact c.silent_modifyPort key fun _ => ⟨rfl, rfl⟩

theorem declareKey_port (c : Core) (key : String) (info : KeyInfo) (other : PortKey) :
    (c.declareKey key info).2.port? other = c.port? other := by
  rw [declareKey]
  split <;> rfl

theorem silent_declareKey (c : Core) (key : String) (info : KeyInfo) :
    c.Silent (c.declareKey key info).2 :=
  silent_of_view fun other => by rw [declareKey_port]

theorem ofConfig_output {config : Config} {name : String} {port : Port}
    (h : (ofConfig config).port? (.output name) = some port) :
    port.edges = [] ∧ port.stamp = .first := by
  have hfollows := silent_declare _ _ _ name port h
  rw [declareKey_port, declareKey_port] at hfollows
  exact hfollows.of_none.2

/-- A settlement changes nothing of a port but the type that it shows. -/
theorem view_settle {β : Type} {view : Port → β}
    (h : ∀ port type, view { port with info := { port.info with type } } = view port) (c : Core)
    (key : PortKey) (type : String) (other : PortKey) :
    ((c.settle key type).2.port? other).map view = (c.port? other).map view := by
  have hretype (c : Core) (member : PortKey) :
      ((c.retype (.concrete type) member).port? other).map view = (c.port? other).map view :=
    c.view_modifyPort (fun port => h port _) member other
  have hall (members : List PortKey) (c : Core) :
      ((members.foldl (retype · (.concrete type)) c).port? other).map view =
        (c.port? other).map view := by
    induction members generalizing c with
    | nil => rfl
    | cons member rest ih => rw [List.foldl_cons, ih, hretype]
  rw [settle_core]
  obtain ⟨settlement, groups⟩ := c.groups.settle key type
  cases settlement with
  | settled members => exact hall members { c with groups }
  | unchanged => exact hretype { c with groups } key
  | conflict found => rfl

theorem silent_settle (c : Core) (key : PortKey) (type : String) : c.Silent (c.settle key type).2 :=
  silent_of_view (c.view_settle (fun _ _ => rfl) key type)

theorem silent_resolve (c : Core) (key : PortKey) (proposed : DataType) :
    c.Silent (c.resolve key proposed).2 := by
  have hresolved := c.resolved key proposed
  generalize c.resolve key proposed = attempt at hresolved ⊢
  cases hresolved with
  | refused | answered => exact .refl c
  | settled => exact c.silent_settle key _

end Core

namespace World

/-- A request leaves no output behind but new ones and those that were there, each with its edges
and as many data farther on as it sent. -/
theorem perform_follows (w : World) (r : Request) {name : String} {port : Port}
    (h : (w.perform r).2.core.port? (.output name) = some port) :
    Port.Follows (w.core.port? (.output name)) (w.posted r name).length port := by
  cases r with
  | push other datum =>
    change (w.push other datum).2.core.port? (.output name) = some port at h
    rw [push_core, Core.port?_advance] at h
    obtain ⟨before, hbefore, rfl⟩ := Option.map_eq_some_iff.mp h
    unfold posted
    rw [hbefore]
    by_cases hname : other = name
    · subst hname
      apply Port.Follows.onward <;> simp [Stamp.next]
    · apply Port.Follows.onward <;> simp [hname, Ne.symm hname]
  | grab other => exact Core.Silent.refl w.core name port (w.grab_core other ▸ h)
  | grabAs other kind => exact Core.Silent.refl w.core name port (w.grabAs_core other kind ▸ h)
  | grabInput other kind => exact Core.Silent.refl w.core name port (w.grabInput_core other kind ▸ h)
  | declare key info => exact w.core.silent_declare key info name port h
  | remove key => exact w.core.silent_remove key name port h
  | setFrequency key frequency => exact w.core.silent_setFrequency key frequency name port h
  | declareKey key info => exact w.core.silent_declareKey key info name port h
  | resolve key proposed => exact w.core.silent_resolve key proposed name port h
  | name | typeName | state | isComplete | level | portNames _ | config | debug | info _
  | hasEdge _ | countEdges _ | nextStamp _ | value _ _ | peek _ _ | setLevel _ | markComplete =>
    exact Core.Silent.refl w.core name port h

/-- An output sends its data under consecutive stamps, each of them once for every time that the
edge is bound. -/
theorem delivered_eq {w : World} {name : String} {port : Port}
    (hport : w.core.port? (.output name) = some port) (r : Request) (edge : EdgeId) :
    w.delivered r name edge =
      (stampFrom port.stamp (w.posted r name)).flatMap
        (List.replicate (port.edges.count edge)) := by
  cases r with
  | push other datum =>
    unfold delivered posted
    by_cases hname : other = name
    · subst hname
      simp [Core.sent, hport, stampFrom]
    · simp [hname, stampFrom]
  | _ => rfl

theorem placed_eq_delivered {w : World} {r : Request} {name : String} {edge : EdgeId}
    (alone : w.placed r edge ≠ [] → w.posted r name ≠ []) :
    w.placed r edge = w.delivered r name edge := by
  cases r with
  | push other datum =>
    by_cases hname : other = name
    · exact (if_pos hname).symm
    · have hposted : w.posted (.push other datum) name = [] := if_neg fun h => hname h.1
      have hdelivered : w.delivered (.push other datum) name edge = [] := if_neg hname
      rw [hdelivered]
      exact Decidable.not_not.mp fun hplaced => alone hplaced hposted
  | _ => rfl

end World

namespace Core

/-- No request removes a port of a running process, and none removes the heartbeat. -/
theorem Touched.stays {c after : Core} (h : c.Touched after) {name : String}
    (lasting : c.state = .initialized ∨ name = heartbeat)
    (declared : (c.port? (.output name)).isSome) : (after.port? (.output name)).isSome := by
  cases h with
  | same | keyed | leveled | completed => exact declared
  | declared =>
    rw [port?_withPort]
    split
    · rfl
    · exact declared
  | removed early _ free =>
    -- Only another port than the heartbeat can have been removed.
    rw [lasting.resolve_left early] at declared ⊢
    rw [port?_withoutPort, if_neg (Ne.symm free)]
    exact declared
  | retimed =>
    rw [retime, port?_modifyPort]
    split
    · rw [Option.isSome_map]
      exact declared
    · exact declared
  | @settled key type _ _ _ _ _ =>
    have hview : ((c.settle key type).2.port? (.output name)).map Port.edges =
        (c.port? (.output name)).map Port.edges :=
      c.view_settle (fun _ _ => rfl) key type (.output name)
    rw [← Option.isSome_map, hview, Option.isSome_map]
    exact declared
  | sent =>
    rw [port?_advance, Option.isSome_map]
    exact declared

end Core

namespace World

theorem perform_output (w : World) (r : Request) {name : String} {port : Port}
    (lasting : w.core.state = .initialized ∨ name = Core.heartbeat)
    (hport : w.core.port? (.output name) = some port) :
    ∃ after, (w.perform r).2.core.port? (.output name) = some after ∧ after.edges = port.edges ∧
      after.stamp = port.stamp + (w.posted r name).length := by
  have hstays := (w.perform_touched r).stays lasting (hport ▸ rfl)
  obtain ⟨after, hafter⟩ := Option.isSome_iff_exists.mp hstays
  have hfollows := w.perform_follows r hafter
  rw [hport] at hfollows
  exact ⟨after, hafter, hfollows.of_some⟩

end World

namespace Core

theorem Frozen.free {c after : Core} (h : c.Frozen after) {key : PortKey} {edge : EdgeId}
    (free : ∀ port, c.port? key = some port → edge ∉ port.edges) (port : Port)
    (hport : after.port? key = some port) : edge ∉ port.edges := by
  have hedges := h.edges_eq key
  rw [hport, Option.map_some, eq_comm] at hedges
  obtain ⟨before, hbefore, hsame⟩ := Option.map_eq_some_iff.mp hedges
  exact hsame ▸ free before hbefore

end Core

/-! ## Where the ports come from -/

/-- What no request changes of a port that is there. -/
def Port.shape (port : Port) : DataType × Flags × List EdgeId :=
  (port.declared, port.info.flags, port.edges)

/-- Whether a port is new and bare, with flags that go together, or has the shape of the one that
was there. -/
inductive Port.Stems (direction : Direction) : Option Port → Port → Prop
  | fresh {after : Port} (bare : after.edges = [])
      (fitting : flagClash? direction after.info.flags = none) : Stems direction none after
  | kept {port after : Port} (shape_eq : after.shape = port.shape) :
      Stems direction (some port) after

namespace Core

theorem stems_of_view {c after : Core} {key : PortKey}
    (h : (after.port? key).map Port.shape = (c.port? key).map Port.shape) {port : Port}
    (hport : after.port? key = some port) : Port.Stems key.direction (c.port? key) port := by
  rw [hport, Option.map_some, eq_comm] at h
  obtain ⟨before, hbefore, hshape⟩ := Option.map_eq_some_iff.mp h
  rw [hbefore]
  exact .kept hshape.symm

/-- A request leaves no port behind but new ones and those that were there. -/
theorem Touched.stems {c after : Core} (h : c.Touched after) {key : PortKey} {port : Port}
    (hport : after.port? key = some port) : Port.Stems key.direction (c.port? key) port := by
  cases h with
  | same | keyed | leveled | completed => exact stems_of_view rfl hport
  | @declared new info _ _ hnew fitting _ =>
    rw [port?_withPort] at hport
    by_cases hkey : key = new
    · rw [if_pos hkey] at hport
      rw [hkey, hnew, ← Option.some.inj hport]
      exact .fresh rfl fitting
    · rw [if_neg hkey] at hport
      exact stems_of_view rfl hport
  | removed => exact stems_of_view rfl (port_of_withoutPort hport).2
  | retimed =>
    refine stems_of_view ?_ hport
    refine c.view_modifyPort (fun _ => ?_) _ key
    rfl
  | settled =>
    refine stems_of_view ?_ hport
    exact c.view_settle (fun _ _ => rfl) _ _ key
  | sent =>
    refine stems_of_view ?_ hport
    exact c.view_advance (fun _ _ => rfl) _ key

end Core

/-! ## A whole hook

A hook sends, puts and takes what its requests do, one after the other. All inductions here are on the
hook, with the world that its first request leaves for the rest of it.
-/

namespace Hook

variable {α β γ : Type}

/-- What the requests of a hook do, one after the other. -/
def along (what : World → Request → List γ) : Hook α → World → List γ
  | done _, _ => []
  | ask r next, w => what w r ++ (next (w.perform r).1).along what (w.perform r).2

def posted (h : Hook α) (w : World) (name : String) : List Datum := h.along (·.posted · name) w

def placed (h : Hook α) (w : World) (edge : EdgeId) : List Stamped := h.along (·.placed · edge) w

def delivered (h : Hook α) (w : World) (name : String) (edge : EdgeId) : List Stamped :=
  h.along (·.delivered · name edge) w

def taken (h : Hook α) (w : World) (edge : EdgeId) : List Stamped := h.along (·.taken · edge) w

/-- What a hook sends, from any output. -/
def dispatched (h : Hook α) (w : World) : List Dispatch := h.along World.dispatched w

theorem placed_eq_dispatched (h : Hook α) (w : World) (edge : EdgeId) :
    h.placed w edge = (h.dispatched w).flatMap (·.onto edge) := by
  induction h generalizing w with
  | done result => rfl
  | ask r next ih =>
    have hrest := ih (w.perform r).1 (w.perform r).2
    change w.placed r edge ++ (next (w.perform r).1).placed (w.perform r).2 edge =
      (w.dispatched r ++ (next (w.perform r).1).dispatched (w.perform r).2).flatMap (·.onto edge)
    rw [List.flatMap_append, w.placed_eq_dispatched, hrest]

theorem along_bind (what : World → Request → List γ) (h : Hook α) (rest : α → Hook β) (w : World) :
    (h.bind rest).along what w =
      h.along what w ++ (rest (h.run w).1).along what (h.run w).2 := by
  induction h generalizing w with
  | done result => rfl
  | ask r next ih => rw [bind, along, along, ih, List.append_assoc]; rfl

theorem along_nil {what : World → Request → List γ} {P : Core → Prop}
    (keeps : ∀ c after, c.Touched after → P c → P after)
    (nothing : ∀ w r, P w.core → what w r = []) (h : Hook α) (w : World) (hw : P w.core) :
    h.along what w = [] := by
  induction h generalizing w with
  | done result => rfl
  | ask r next ih =>
    -- The rest of the hook begins where the condition still holds.
    rw [along, nothing w r hw, ih _ _ (keeps _ _ (w.perform_touched r) hw), List.append_nil]

theorem run_queue (h : Hook α) (w : World) (edge : EdgeId) :
    h.taken w edge ++ (h.run w).2.edges.queue edge = w.edges.queue edge ++ h.placed w edge := by
  induction h generalizing w with
  | done result => exact (List.append_nil _).symm
  | ask r next ih =>
    -- What the first request leaves on the edge is what the rest of the hook finds there.
    have hfirst := w.perform_queue r edge
    have hrest := ih (w.perform r).1 (w.perform r).2
    change (w.taken r edge ++ (next (w.perform r).1).taken (w.perform r).2 edge) ++ _ =
      w.edges.queue edge ++ (w.placed r edge ++ (next (w.perform r).1).placed (w.perform r).2 edge)
    rw [List.append_assoc, run_ask, hrest, ← List.append_assoc, hfirst, List.append_assoc]

theorem run_output (h : Hook α) {w : World} {name : String} {port : Port}
    (lasting : w.core.state = .initialized ∨ name = Core.heartbeat)
    (hport : w.core.port? (.output name) = some port) :
    ∃ after, (h.run w).2.core.port? (.output name) = some after ∧ after.edges = port.edges ∧
      after.stamp = port.stamp + (h.posted w name).length := by
  induction h generalizing w port with
  | done result => exact ⟨port, hport, rfl, rfl⟩
  | ask r next ih =>
    obtain ⟨mid, hmid, hedges, hstamp⟩ := w.perform_output r lasting hport
    have hstate := (w.perform_touched r).state_eq
    obtain ⟨after, hafter, hedges', hstamp'⟩ := ih (w.perform r).1 (hstate ▸ lasting) hmid
    refine ⟨after, hafter, hedges'.trans hedges, ?_⟩
    rw [hstamp', hstamp, Nat.add_assoc, ← List.length_append]
    rfl

theorem delivered_eq (h : Hook α) {w : World} {name : String} {port : Port}
    (lasting : w.core.state = .initialized ∨ name = Core.heartbeat)
    (hport : w.core.port? (.output name) = some port) (edge : EdgeId) :
    h.delivered w name edge =
      (stampFrom port.stamp (h.posted w name)).flatMap (List.replicate (port.edges.count edge)) := by
  induction h generalizing w port with
  | done result => rfl
  | ask r next ih =>
    obtain ⟨mid, hmid, hedges, hstamp⟩ := w.perform_output r lasting hport
    have hstate := (w.perform_touched r).state_eq
    have hfirst := World.delivered_eq hport r edge
    have hrest := ih (w.perform r).1 (hstate ▸ lasting) hmid
    rw [hedges, hstamp] at hrest
    -- The rest of the hook sends under the stamps behind those of the first request.
    change w.delivered r name edge ++ (next (w.perform r).1).delivered (w.perform r).2 name edge =
      (stampFrom port.stamp
        (w.posted r name ++ (next (w.perform r).1).posted (w.perform r).2 name)).flatMap _
    rw [stampFrom_append, List.flatMap_append, hfirst, hrest]

theorem placed_eq_delivered (h : Hook α) {w : World} (running : w.core.state = .initialized)
    {name : String} {edge : EdgeId}
    (alone : ∀ other port, other ≠ name → w.core.port? (.output other) = some port →
      edge ∉ port.edges) :
    h.placed w edge = h.delivered w name edge := by
  induction h generalizing w with
  | done result => rfl
  | ask r next ih =>
    have frozen := (w.perform_touched r).frozen running
    have hfirst : w.placed r edge = w.delivered r name edge := by
      cases r with
      | push other datum =>
        by_cases hname : other = name
        · exact (if_pos hname).symm
        · -- Another output does not have the edge.
          have hdelivered : w.delivered (.push other datum) name edge = [] := if_neg hname
          rw [hdelivered]
          exact Core.sent_of_free (fun port => alone other port hname) datum
      | _ => rfl
    have hrest := ih (w.perform r).1 (frozen.state_eq.trans running)
      fun other port hother => frozen.free (fun port => alone other port hother) port
    change w.placed r edge ++ (next (w.perform r).1).placed (w.perform r).2 edge =
      w.delivered r name edge ++ (next (w.perform r).1).delivered (w.perform r).2 name edge
    rw [hfirst, hrest]

theorem placed_of_free (h : Hook α) {w : World} (running : w.core.state = .initialized)
    {edge : EdgeId}
    (free : ∀ name port, w.core.port? (.output name) = some port → edge ∉ port.edges) :
    h.placed w edge = [] := by
  refine along_nil (P := fun c => c.state = .initialized ∧ ∀ name port,
    c.port? (.output name) = some port → edge ∉ port.edges) ?_ ?_ h w ⟨running, free⟩
  · intro c after touched hc
    have frozen := touched.frozen hc.1
    exact ⟨frozen.state_eq.trans hc.1, fun name port => frozen.free (hc.2 name) port⟩
  · intro w r hw
    cases r with
    | push name datum => exact Core.sent_of_free (hw.2 name) datum
    | _ => rfl

/-- From an edge that is bound to no output, the hook of a running process takes only. -/
theorem queue_of_free (h : Hook α) {w : World} (running : w.core.state = .initialized)
    {edge : EdgeId}
    (free : ∀ name port, w.core.port? (.output name) = some port → edge ∉ port.edges) :
    (h.run w).2.edges.queue edge = (w.edges.queue edge).drop (h.taken w edge).length := by
  have hqueue := h.run_queue w edge
  rw [h.placed_of_free running free, List.append_nil] at hqueue
  rw [← hqueue, List.drop_left]

theorem taken_of_free (h : Hook α) {w : World} (running : w.core.state = .initialized)
    {edge : EdgeId}
    (free : ∀ name port, w.core.port? (.input name) = some port → edge ∉ port.edges) :
    h.taken w edge = [] := by
  refine along_nil (P := fun c => c.state = .initialized ∧ ∀ name port,
    c.port? (.input name) = some port → edge ∉ port.edges) ?_ ?_ h w ⟨running, free⟩
  · intro c after touched hc
    have frozen := touched.frozen hc.1
    exact ⟨frozen.state_eq.trans hc.1, fun name port => frozen.free (hc.2 name) port⟩
  · intro w r hw
    have hinput (name : String) : ¬ w.inputEdge? name = some edge := by
      intro h
      obtain ⟨port, hport, hedge⟩ := Option.bind_eq_some_iff.mp h
      exact hw.2 name port hport (List.mem_of_head? hedge)
    cases r with
    | grab name | grabAs name _ | grabInput name _ => exact if_neg (hinput name)
    | _ => rfl

end Hook

end Dataflow
