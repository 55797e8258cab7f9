import Dataflow.Proofs.Network.Ensemble
import Dataflow.Proofs.Process.Output

/-!
# Delivery

Whatever processes and others do at the same time, an edge that only one output sends to delivers
what the output sends: each datum once, in order, under consecutive stamps. What was taken from the
edge so far and what is still queued make up what was sent since the edge was bound. The stamp of an
output counts what it sent since it was declared or reset, bound or not.
-/

namespace Dataflow

namespace Actor

variable {σ : Type}

theorem go_queue (a : Actor σ) (edges : Edges) (edge : EdgeId) :
    a.does edges (·.taken · edge) ++ (a.go edges).2.queue edge =
      edges.queue edge ++ a.does edges (·.placed · edge) := by
  obtain ⟨core, plugin, work⟩ := a
  match work with
  | .idle _ => exact (List.append_nil _).symm
  | .busy (.ask r next) _ _ => exact World.perform_queue ⟨core, edges⟩ r edge
  | .busy (.done (.ok _, _)) _ _ | .busy (.done (.error _, _)) _ _ => exact (List.append_nil _).symm

theorem go_follows {a after : Actor σ} {edges : Edges} (h : (a.go edges).1 = some after)
    {name : String} {port : Port} (hport : after.core.port? (.output name) = some port) :
    Port.Follows (a.core.port? (.output name)) (a.does edges (·.posted · name)).length port := by
  obtain ⟨core, plugin, work⟩ := a
  match work with
  | .idle _ =>
    obtain rfl := Option.some.inj h
    exact Core.Silent.refl core name port hport
  | .busy (.ask r next) _ _ =>
    obtain rfl := Option.some.inj h
    exact World.perform_follows ⟨core, edges⟩ r hport
  | .busy (.done (.ok _, _)) goal? _ =>
    obtain rfl := Option.some.inj h
    -- A change of the state is none of the ports.
    cases goal? <;> exact Core.Silent.refl core name port hport
  | .busy (.done (.error _, _)) _ true =>
    obtain rfl := Option.some.inj h
    exact Core.Silent.refl core name port hport
  | .busy (.done (.error _, _)) _ false => exact nomatch h

/-- What comes to an edge from its own output only, comes under consecutive stamps. -/
theorem placed_eq {a : Actor σ} {edges : Edges} {name : String} {port : Port} {edge : EdgeId}
    (hport : a.core.port? (.output name) = some port) (once : port.edges.count edge = 1)
    (alone : a.does edges (·.placed · edge) ≠ [] → a.does edges (·.posted · name) ≠ []) :
    a.does edges (·.placed · edge) = stampFrom port.stamp (a.does edges (·.posted · name)) := by
  obtain ⟨core, plugin, work⟩ := a
  match work with
  | .idle _ | .busy (.done _) _ _ => rfl
  | .busy (.ask r next) _ _ =>
    have hdelivered := World.delivered_eq (w := ⟨core, edges⟩) hport r edge
    have hplaced : World.placed ⟨core, edges⟩ r edge = World.delivered ⟨core, edges⟩ r name edge :=
      World.placed_eq_delivered alone
    rw [once] at hdelivered
    exact hplaced.trans (hdelivered.trans (List.flatMap_singleton' _))

end Actor

variable {ι : Type} [DecidableEq ι] {σ : ι → Type} {γ : Type}

namespace Ensemble

/-! ## What an event does -/

def does (s : Ensemble σ) (i : ι) (what : World → Request → List γ) : List γ :=
  (s.actors i).elim [] fun a => a.does s.edges what

omit [DecidableEq ι] in
theorem does_of_actor {s : Ensemble σ} {i : ι} {a : Actor (σ i)} (h : s.actors i = some a)
    (what : World → Request → List γ) : s.does i what = a.does s.edges what := by
  rw [does, h]
  rfl

/-- What is sent from an output of a process. -/
def posted (s : Ensemble σ) (i : ι) (name : String) : Event σ → List Datum
  | .go j => if j = i then s.does j (·.posted · name) else []
  | _ => []

/-- What is put on an edge. -/
def placed (s : Ensemble σ) (edge : EdgeId) : Event σ → List Stamped
  | .go i => s.does i (·.placed · edge)
  | .feed other token => if other = edge then [token] else []
  | _ => []

/-- What is taken from an edge. -/
def taken (s : Ensemble σ) (edge : EdgeId) : Event σ → List Stamped
  | .go i => s.does i (·.taken · edge)
  | .pop other => if other = edge then (s.edges.queue edge).head?.toList else []
  | .clear other => if other = edge then s.edges.queue edge else []
  | _ => []

theorem next_queue (s : Ensemble σ) (event : Event σ) (edge : EdgeId) :
    s.taken edge event ++ (s.next event).edges.queue edge =
      s.edges.queue edge ++ s.placed edge event := by
  cases event with
  | make i config plugin memory => exact (List.append_nil _).symm
  | begin i command =>
    unfold next
    dsimp only
    split <;> exact (List.append_nil _).symm
  | go i =>
    unfold next taken placed does
    dsimp only
    cases h : s.actors i with
    | none => exact (List.append_nil _).symm
    | some a => exact a.go_queue s.edges edge
  | pop other => exact (s.edges.queue_pop other edge).trans (List.append_nil _).symm
  | clear other =>
    change (if other = edge then s.edges.queue edge else []) ++ (s.edges.clear other).queue edge =
      s.edges.queue edge ++ []
    unfold Edges.clear
    by_cases h : other = edge
    · subst h
      simp
    · simp [h, Ne.symm h]
  | feed other token =>
    change (s.edges.push other token).queue edge =
      s.edges.queue edge ++ if other = edge then [token] else []
    by_cases h : other = edge
    · subst h
      simp
    · simp [h, Ne.symm h]

/-! ## What becomes of an output -/

/-- An output of a process. -/
def output? (s : Ensemble σ) (i : ι) (name : String) : Option Port :=
  (s.actors i).bind fun a => a.core.port? (.output name)

/-- Whether an output begins anew with an event: its process is made or reset, or the output is not
declared before. -/
def renews (s : Ensemble σ) (i : ι) (name : String) : Event σ → Bool
  | .make j _ _ _ => decide (j = i)
  | .begin j .reset => decide (j = i) && (s.idle? j).isSome
  | .go _ => (s.output? i name).isNone
  | _ => false

/-- What has been sent from an output since it began anew, with what was sent before counted. -/
def since (s : Ensemble σ) (i : ι) (name : String) (sofar : List Datum) : List (Event σ) → List Datum
  | [] => sofar
  | event :: rest =>
    (s.next event).since i name
      ((if s.renews i name event then [] else sofar) ++ s.posted i name event) rest

/-- An output that is there after an event is new and bare, or was there before, by so many data
back as the event sends. -/
inductive Step (s : Ensemble σ) (i : ι) (name : String) (event : Event σ) (after : Port) : Prop
  | renewed (new : s.renews i name event = true) (quiet : s.posted i name event = [])
      (bare : after.edges = []) (first : after.stamp = .first)
  | onward (old : s.renews i name event = false) {before : Port}
      (hbefore : s.output? i name = some before)
      (stamp_eq : after.stamp = before.stamp + (s.posted i name event).length)

theorem output?_put_self (s : Ensemble σ) (i : ι) (actor? : Option (Actor (σ i))) (name : String) :
    (s.put i actor?).output? i name = actor?.bind fun a => a.core.port? (.output name) := by
  rw [output?, put_self]

theorem output?_put_of_ne (s : Ensemble σ) {i j : ι} (h : i ≠ j) (actor? : Option (Actor (σ j)))
    (name : String) : (s.put j actor?).output? i name = s.output? i name := by
  rw [output?, put_of_ne s h, output?]

omit [DecidableEq ι] in
theorem output?_of_idle {s : Ensemble σ} {i : ι} {p : Process (σ i)} (h : s.idle? i = some p)
    (name : String) : s.output? i name = p.core.port? (.output name) := by
  obtain ⟨⟨core, plugin, work⟩, ha, hidle⟩ := Option.bind_eq_some_iff.mp h
  rw [output?, ha]
  match work with
  | .idle memory =>
    obtain rfl := Option.some.inj hidle
    rfl
  | .busy _ _ _ => exact nomatch hidle

theorem Step.same {s : Ensemble σ} {i : ι} {name : String} {event : Event σ} {after : Port}
    (h : s.output? i name = some after) (old : s.renews i name event = false)
    (quiet : s.posted i name event = []) : s.Step i name event after := by
  apply Step.onward old h
  rw [quiet]
  rfl

theorem step_make {s : Ensemble σ} {i j : ι} {name : String} {after : Port} {config : Config}
    {plugin : Plugin (σ j)} {memory : σ j}
    (h : (s.next (.make j config plugin memory)).output? i name = some after) :
    s.Step i name (.make j config plugin memory) after := by
  by_cases hj : j = i
  · subst hj
    have hport := (s.output?_put_self j (some (.making config plugin memory)) name).symm.trans h
    obtain ⟨bare, first⟩ := Core.ofConfig_output hport
    exact .renewed (decide_eq_true rfl) rfl bare first
  · have hport := (s.output?_put_of_ne (Ne.symm hj) (some (.making config plugin memory)) name).symm.trans
      h
    exact .same hport (decide_eq_false hj) rfl

theorem step_begin {s : Ensemble σ} {i j : ι} {name : String} {after : Port} {command : Command}
    (h : (s.next (.begin j command)).output? i name = some after) :
    s.Step i name (.begin j command) after := by
  unfold next at h
  dsimp only at h
  cases hidle : s.idle? j with
  | none =>
    rw [hidle] at h
    refine .same h ?_ rfl
    cases command <;> simp [renews, hidle]
  | some p =>
    rw [hidle] at h
    by_cases hj : j = i
    · subst hj
      dsimp only at h
      rw [output?_put_self] at h
      have hport : (p.task command).core.port? (.output name) = some after := h
      by_cases hreset : command = .reset
      · subst hreset
        obtain ⟨bare, first⟩ := p.rewind_port hport
        refine .renewed ?_ rfl bare first
        simp [renews, hidle]
      · obtain ⟨more, hmore, -⟩ := p.task_port hreset (.output name)
        rw [hmore] at hport
        obtain ⟨before, hbefore, rfl⟩ := Option.map_eq_some_iff.mp hport
        refine .onward ?_ ((output?_of_idle hidle name).trans hbefore) rfl
        cases command with
        | reset => exact absurd rfl hreset
        | _ => rfl
    · dsimp only at h
      rw [output?_put_of_ne s (Ne.symm hj)] at h
      refine .same h ?_ rfl
      cases command <;> simp [renews, hj]

theorem step_go {s : Ensemble σ} {i j : ι} {name : String} {after : Port}
    (h : (s.next (.go j)).output? i name = some after) : s.Step i name (.go j) after := by
  have hsame (h : s.output? i name = some after) (quiet : s.posted i name (.go j) = []) :
      s.Step i name (.go j) after := by
    refine .same h ?_ quiet
    change (s.output? i name).isNone = false
    rw [h]
    rfl
  unfold next at h
  dsimp only at h
  by_cases hj : j = i
  · subst hj
    cases ha : s.actors j with
    | none =>
      rw [ha] at h
      rw [output?, ha] at h
      exact nomatch h
    | some a =>
      rw [ha] at h
      obtain ⟨a', ha', hport⟩ := Option.bind_eq_some_iff.mp ((s.output?_put_self j _ name).symm.trans h)
      have hfollows := a.go_follows ha' hport
      have houtput : s.output? j name = a.core.port? (.output name) := by
        rw [output?, ha]
        rfl
      have hposted : s.posted j name (.go j) = a.does s.edges (·.posted · name) := by
        rw [posted, if_pos rfl, does, ha]
        rfl
      rw [← houtput, ← hposted] at hfollows
      cases hbefore : s.output? j name with
      | none =>
        -- A hook has declared the output just now.
        rw [hbefore] at hfollows
        obtain ⟨hquiet, bare, first⟩ := hfollows.of_none
        refine .renewed ?_ (List.length_eq_zero_iff.mp hquiet) bare first
        change (s.output? j name).isNone = true
        rw [hbefore]
        rfl
      | some before =>
        rw [hbefore] at hfollows
        refine .onward ?_ hbefore hfollows.of_some.2
        change (s.output? j name).isNone = false
        rw [hbefore]
        rfl
  · have hquiet : s.posted i name (.go j) = [] := if_neg hj
    cases ha : s.actors j with
    | none =>
      rw [ha] at h
      exact hsame h hquiet
    | some a =>
      rw [ha] at h
      exact hsame ((s.output?_put_of_ne (Ne.symm hj) _ name).symm.trans h) hquiet

theorem next_output {s : Ensemble σ} {i : ι} {name : String} {event : Event σ} {after : Port}
    (h : (s.next event).output? i name = some after) : s.Step i name event after := by
  cases event with
  | make j config plugin memory => exact step_make h
  | begin j command => exact step_begin h
  | go j => exact step_go h
  | pop _ | clear _ | feed _ _ => exact .same h rfl rfl

/-! ## Schedules

What a schedule does is what its events do, one after the other.
-/

/-- What the events of a schedule do, one after the other. -/
def along (what : Ensemble σ → Event σ → List γ) (s : Ensemble σ) : List (Event σ) → List γ
  | [] => []
  | event :: rest => what s event ++ (s.next event).along what rest

def postedAlong (s : Ensemble σ) (i : ι) (name : String) (events : List (Event σ)) : List Datum :=
  s.along (·.posted i name) events

def placedAlong (s : Ensemble σ) (edge : EdgeId) (events : List (Event σ)) : List Stamped :=
  s.along (·.placed edge) events

def takenAlong (s : Ensemble σ) (edge : EdgeId) (events : List (Event σ)) : List Stamped :=
  s.along (·.taken edge) events

/-- Whether an edge is bound to an output, once. -/
def Bound (s : Ensemble σ) (i : ι) (name : String) (edge : EdgeId) : Prop :=
  ∃ port, s.output? i name = some port ∧ port.edges.count edge = 1

/-- Whether an edge stays bound to an output, and nobody else puts anything on it. -/
def Served (s : Ensemble σ) (i : ι) (name : String) (edge : EdgeId) : List (Event σ) → Prop
  | [] => s.Bound i name edge
  | event :: rest =>
    s.Bound i name edge ∧ (s.placed edge event ≠ [] → s.posted i name event ≠ []) ∧
      (s.next event).Served i name edge rest

theorem along_append (what : Ensemble σ → Event σ → List γ) (s : Ensemble σ)
    (events more : List (Event σ)) :
    s.along what (events ++ more) = s.along what events ++ (s.after events).along what more := by
  induction events generalizing s with
  | nil => rfl
  | cons event rest ih => rw [List.cons_append, along, along, ih, List.append_assoc]; rfl

theorem Served.bound {s : Ensemble σ} {i : ι} {name : String} {edge : EdgeId}
    {events : List (Event σ)} (h : s.Served i name edge events) : s.Bound i name edge := by
  cases events with
  | nil => exact h
  | cons event rest => exact h.1

theorem Served.left {s : Ensemble σ} {i : ι} {name : String} {edge : EdgeId}
    {events more : List (Event σ)} (h : s.Served i name edge (events ++ more)) :
    s.Served i name edge events := by
  induction events generalizing s with
  | nil => exact h.bound
  | cons event rest ih => exact ⟨h.1, h.2.1, ih h.2.2⟩

theorem after_queue (s : Ensemble σ) (events : List (Event σ)) (edge : EdgeId) :
    s.takenAlong edge events ++ (s.after events).edges.queue edge =
      s.edges.queue edge ++ s.placedAlong edge events := by
  induction events generalizing s with
  | nil => exact (List.append_nil _).symm
  | cons event rest ih =>
    -- What the first event leaves on the edge is what the others find there.
    have hfirst := s.next_queue event edge
    have hrest := ih (s.next event)
    change (s.taken edge event ++ (s.next event).takenAlong edge rest) ++
        ((s.next event).after rest).edges.queue edge =
      s.edges.queue edge ++ (s.placed edge event ++ (s.next event).placedAlong edge rest)
    rw [List.append_assoc, hrest, ← List.append_assoc, hfirst, List.append_assoc]

theorem placed_eq {s : Ensemble σ} {i : ι} {name : String} {port : Port} {edge : EdgeId}
    (hport : s.output? i name = some port) (once : port.edges.count edge = 1) {event : Event σ}
    (alone : s.placed edge event ≠ [] → s.posted i name event ≠ []) :
    s.placed edge event = stampFrom port.stamp (s.posted i name event) := by
  by_cases hposted : s.posted i name event = []
  · rw [hposted]
    by_contra hplaced
    exact alone hplaced hposted
  · cases event with
    | go j =>
      -- Only the process itself sends from its output.
      have hj : j = i := by
        by_contra hj
        exact hposted (if_neg hj)
      subst hj
      obtain ⟨a, ha, haport⟩ := Option.bind_eq_some_iff.mp hport
      have hposted' : s.posted j name (.go j) = a.does s.edges (·.posted · name) :=
        (if_pos rfl).trans (does_of_actor ha _)
      have hplaced : s.placed edge (.go j) = a.does s.edges (·.placed · edge) := does_of_actor ha _
      rw [hposted', hplaced] at alone ⊢
      exact Actor.placed_eq haport once alone
    | make _ _ _ _ | begin _ _ | pop _ | clear _ | feed _ _ => exact absurd rfl hposted

/-- As long as an edge is served, everything that comes to it is what its output sends. -/
theorem Served.placedAlong_eq {s : Ensemble σ} {i : ι} {name : String} {edge : EdgeId}
    {events : List (Event σ)} (h : s.Served i name edge events) {port : Port}
    (hport : s.output? i name = some port) :
    s.placedAlong edge events = stampFrom port.stamp (s.postedAlong i name events) ∧
      ∃ after, (s.after events).output? i name = some after ∧
        after.stamp = port.stamp + (s.postedAlong i name events).length := by
  induction events generalizing s port with
  | nil => exact ⟨rfl, port, hport, rfl⟩
  | cons event rest ih =>
    obtain ⟨⟨port', hport', once⟩, alone, hrest⟩ := h
    obtain rfl := Option.some.inj (hport.symm.trans hport')
    have hfirst := placed_eq hport once alone
    obtain ⟨mid, hmid, hbound⟩ := hrest.bound
    have hstamp : mid.stamp = port.stamp + (s.posted i name event).length := by
      cases next_output hmid with
      | renewed _ _ bare _ =>
        -- An output that begins anew has no edge yet.
        rw [bare, List.count_nil] at hbound
        exact absurd hbound Nat.zero_ne_one
      | onward _ hbefore stamp_eq =>
        obtain rfl := Option.some.inj (hport.symm.trans hbefore)
        exact stamp_eq
    obtain ⟨hlater, after, hafter, hstamp'⟩ := ih hrest hmid
    constructor
    · change s.placed edge event ++ (s.next event).placedAlong edge rest =
        stampFrom port.stamp (s.posted i name event ++ (s.next event).postedAlong i name rest)
      rw [hfirst, hlater, stampFrom_append, hstamp]
    · refine ⟨after, hafter, ?_⟩
      change _ = port.stamp +
        (s.posted i name event ++ (s.next event).postedAlong i name rest).length
      rw [hstamp', hstamp, List.length_append, Nat.add_assoc]

/-- The stamp of an output counts what was sent since it began anew. -/
theorem stamp_since (s : Ensemble σ) {i : ι} {name : String} {sofar : List Datum}
    (h : ∀ port, s.output? i name = some port → port.stamp = sofar.length) (events : List (Event σ))
    {after : Port} (hafter : (s.after events).output? i name = some after) :
    after.stamp = (s.since i name sofar events).length := by
  induction events generalizing s sofar with
  | nil => exact h after hafter
  | cons event rest ih =>
    refine ih (s.next event) (fun port hport => ?_) hafter
    cases next_output hport with
    | renewed new quiet _ first =>
      -- The stamp and the count begin again together.
      rw [new, quiet, first]
      rfl
    | onward old hbefore stamp_eq =>
      rw [old, stamp_eq, h _ hbefore, List.length_append]
      rfl

/-- An empty edge that is bound to an output, and that nobody else sends to, delivers for as long as
it stays bound what the output sends from then on: what was taken from it and what it still holds
are just these data, in their order, under the stamps from that of the output on. Two edges that are
bound to one output without a datum sent in between deliver the same. And the next stamp of an
output is the number of data that it has sent since it was declared or last reset. -/
theorem delivery (s : Ensemble σ) (i : ι) (name : String) :
    (∀ {edge events port}, s.Served i name edge events → s.edges.queue edge = [] →
        s.output? i name = some port →
        s.takenAlong edge events ++ (s.after events).edges.queue edge =
          stampFrom port.stamp (s.postedAlong i name events)) ∧
      (∀ {edge edge' earlier later}, s.Served i name edge (earlier ++ later) →
        (s.after earlier).Served i name edge' later → s.edges.queue edge = [] →
        (s.after earlier).edges.queue edge' = [] → s.postedAlong i name earlier = [] →
        s.takenAlong edge (earlier ++ later) ++ (s.after (earlier ++ later)).edges.queue edge =
          (s.after earlier).takenAlong edge' later ++
            (s.after (earlier ++ later)).edges.queue edge') ∧
      ∀ edges events port, ((start edges : Ensemble σ).after events).output? i name = some port →
        port.stamp = ((start edges : Ensemble σ).since i name [] events).length := by
  have hfull {s : Ensemble σ} {edge : EdgeId} {events : List (Event σ)} {port : Port}
      (served : s.Served i name edge events) (empty : s.edges.queue edge = [])
      (hport : s.output? i name = some port) :
      s.takenAlong edge events ++ (s.after events).edges.queue edge =
        stampFrom port.stamp (s.postedAlong i name events) := by
    rw [after_queue, empty, List.nil_append]
    exact (served.placedAlong_eq hport).1
  refine ⟨hfull, ?_, fun edges events port hport => ?_⟩
  · intro edge edge' earlier later served served' empty empty' quiet
    -- Up to the second binding the output sends nothing, so that both edges begin at one stamp.
    obtain ⟨port, hport, -⟩ := served.bound
    obtain ⟨-, mid, hmid, hstamp⟩ := served.left.placedAlong_eq hport
    rw [quiet, List.length_nil, Nat.add_zero] at hstamp
    have hposted : s.postedAlong i name (earlier ++ later) =
        (s.after earlier).postedAlong i name later := by
      have happend := along_append (·.posted i name) s earlier later
      have hearlier : s.along (·.posted i name) earlier = [] := quiet
      rwa [hearlier, List.nil_append] at happend
    have hlater := hfull served' empty' hmid
    rw [hfull served empty hport, hposted, ← hstamp, ← hlater, after_append]
  · refine stamp_since _ (fun port h => ?_) events hport
    have hnone : (start edges : Ensemble σ).output? i name = none := rfl
    exact nomatch hnone.symm.trans h

instance (s : Ensemble σ) (i : ι) (name : String) (edge : EdgeId) : Decidable (s.Bound i name edge) :=
  decidable_of_iff ((s.output? i name).any fun port => decide (port.edges.count edge = 1))
    (by simp [Bound, Option.any_eq_true])

def decidableServed (s : Ensemble σ) (i : ι) (name : String) (edge : EdgeId) :
    (events : List (Event σ)) → Decidable (s.Served i name edge events)
  | [] => inferInstanceAs (Decidable (s.Bound i name edge))
  | event :: rest =>
    have := (s.next event).decidableServed i name edge rest
    inferInstanceAs (Decidable (_ ∧ _ ∧ _))

instance (s : Ensemble σ) (i : ι) (name : String) (edge : EdgeId) (events : List (Event σ)) :
    Decidable (s.Served i name edge events) :=
  s.decidableServed i name edge events

/-- A port of any type that promises nothing. -/
def plainPort : PortInfo := ⟨.any, .empty, "", .one⟩

def sender : Plugin Unit :=
  { Plugin.idle Unit with
    declare := Reaction.request (.declare (.output "out") plainPort)
    step := Reaction.request (.push "out" (.payload (.scalar (.bool true)))) }

def taker : Plugin Unit :=
  { Plugin.idle Unit with
    declare := Reaction.request (.declare (.input "in") plainPort)
    step := do let _ ← Reaction.request (.grab "in") }

/-- What a process is when it is given some commands from its making on. -/
def behind (plugin : Plugin Unit) (commands : List Command) : Actor Unit :=
  let p := (Process.create ∅ plugin () .empty).2.1.follow
    (commands.map fun command => (Edges.empty, command))
  ⟨p.core, p.plugin, .idle p.memory⟩

/-- A sender that is bound and not running yet, and a taker at the other end of its edge. -/
def pair : Ensemble fun _ : Bool => Unit where
  actors sends :=
    some (if sends then behind sender [.configure, .connect (.output "out") (some ⟨0⟩)]
      else behind taker [.configure, .connect (.input "in") (some ⟨0⟩), .init])
  edges := .empty

/-- The sender is bound to another edge besides. -/
def binding : List (Event fun _ : Bool => Unit) :=
  [.begin true (.connect (.output "out") (some ⟨1⟩)), .go true]

/-- The sender does two steps. The taker begins before the first one is done, and takes its datum in
the midst of the second one. Somebody else takes the other datum. -/
def crossing : List (Event fun _ : Bool => Unit) :=
  [.begin true .init, .go true, .begin true .step, .begin false .step, .go true, .go false, .go true,
    .go false, .go true, .go true, .go true, .begin true .step, .go true, .go false, .go true,
    .pop ⟨0⟩]

/-- Both edges deliver both data, whoever takes them. A sender that has sent one datum since it was
made has moved its stamp by one. -/
theorem delivery_pair :
    pair.Served true "out" ⟨0⟩ (binding ++ crossing) ∧ pair.edges.queue ⟨0⟩ = [] ∧
      (pair.after binding).Served true "out" ⟨1⟩ crossing ∧
      (pair.after binding).edges.queue ⟨1⟩ = [] ∧ pair.postedAlong true "out" binding = [] ∧
      pair.takenAlong ⟨0⟩ (binding ++ crossing) ++
          (pair.after (binding ++ crossing)).edges.queue ⟨0⟩ =
        stampFrom .first [.payload (.scalar (.bool true)), .payload (.scalar (.bool true))] ∧
      (pair.after binding).takenAlong ⟨1⟩ crossing = [] ∧
      (pair.after (binding ++ crossing)).edges.queue ⟨1⟩ =
        stampFrom .first [.payload (.scalar (.bool true)), .payload (.scalar (.bool true))] := by
  have served : pair.Served true "out" ⟨0⟩ (binding ++ crossing) := by
    decide +kernel
  have served' : (pair.after binding).Served true "out" ⟨1⟩ crossing := by
    decide +kernel
  have empty' : (pair.after binding).edges.queue ⟨1⟩ = [] := by
    decide +kernel
  have quiet : pair.postedAlong true "out" binding = [] := by
    decide +kernel
  have hposted : pair.postedAlong true "out" (binding ++ crossing) =
      [.payload (.scalar (.bool true)), .payload (.scalar (.bool true))] := by
    decide +kernel
  have htaken : (pair.after binding).takenAlong ⟨1⟩ crossing = [] := by
    decide +kernel
  obtain ⟨port, hport, -⟩ := served.bound
  have hstamp : (pair.output? true "out").map Port.stamp = some .first := by
    decide +kernel
  rw [hport, Option.map_some] at hstamp
  obtain ⟨hfull, htwo, -⟩ := delivery pair true "out"
  have hfirst := hfull served rfl hport
  have hsecond := htwo served served' rfl empty' quiet
  rw [hposted, Option.some.inj hstamp] at hfirst
  rw [hfirst, htaken, List.nil_append] at hsecond
  exact ⟨served, rfl, served', empty', quiet, hfirst, htaken, hsecond.symm⟩

end Ensemble

end Dataflow
