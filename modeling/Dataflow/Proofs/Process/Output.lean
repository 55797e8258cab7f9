import Dataflow.Proofs.Core.Hushed
import Dataflow.Proofs.Process.Freeze
import Dataflow.Proofs.Process.Protocol
import Dataflow.Proofs.Process.Task

/-!
# What a command sends

What a command sends from an output is told by the requests of its task. A step that finds fault
sends one datum from every output but the heartbeat, and any step that does not fail sends its
report from the heartbeat. The stamp of an output counts what was sent.
-/

namespace Dataflow

namespace Core

theorem connect_port (c : Core) (key : PortKey) (edge? : Option EdgeId) (other : PortKey) :
    ∃ more, (c.connect key edge?).2.port? other =
        (c.port? other).map (fun port => { port with edges := port.edges ++ more }) ∧
      (c.state = .initialized → more = []) := by
  have hsame : c.port? other =
      (c.port? other).map fun port => { port with edges := port.edges ++ [] } := by
    simp
  rcases c.connect_cases key edge? with ⟨e, h⟩ | ⟨edge, port, -, configured, -, -, h⟩
  · rw [h]
    exact ⟨[], hsame, fun _ => rfl⟩
  · have hidle (running : c.state = .initialized) : [edge] = [] := nomatch configured.symm.trans running
    rw [h]
    by_cases hkey : other = key
    · exact ⟨[edge], (c.port?_modifyPort key _ other).trans (if_pos hkey), hidle⟩
    · exact ⟨[], (c.port?_modifyPort key _ other).trans ((if_neg hkey).trans hsame), fun _ => rfl⟩

end Core

namespace Hook

variable {α β γ : Type}

/-- Whether a hook asks no other requests, whatever is replied to it. -/
def AsksOnly (allowed : Request → Prop) : Hook α → Prop
  | done _ => True
  | ask r next => allowed r ∧ ∀ reply, (next reply).AsksOnly allowed

theorem AsksOnly.bind {allowed : Request → Prop} {h : Hook α} {rest : α → Hook β}
    (hh : h.AsksOnly allowed) (hrest : ∀ a, (rest a).AsksOnly allowed) :
    (h.bind rest).AsksOnly allowed := by
  induction h with
  | done result => exact hrest result
  | ask r next ih => exact ⟨hh.1, fun reply => ih reply (hh.2 reply)⟩

theorem AsksOnly.mono {allowed allowed' : Request → Prop} {h : Hook α} (hh : h.AsksOnly allowed)
    (himp : ∀ r, allowed r → allowed' r) : h.AsksOnly allowed' := by
  induction h with
  | done result => trivial
  | ask r next ih => exact ⟨himp r hh.1, fun reply => ih reply (hh.2 reply)⟩

theorem AsksOnly.along_eq_nil {allowed : Request → Prop} {h : Hook α} (hh : h.AsksOnly allowed)
    {what : World → Request → List γ} (nothing : ∀ w r, allowed r → what w r = []) (w : World) :
    h.along what w = [] := by
  induction h generalizing w with
  | done result => rfl
  | ask r next ih => rw [along, nothing w r hh.1, ih _ (hh.2 _), List.append_nil]

/-- Whether a request sends nothing. -/
def Quiet (r : Request) : Prop := ∀ port datum, r ≠ .push port datum

theorem posted_of_quiet (w : World) {r : Request} (h : Quiet r) (name : String) :
    w.posted r name = [] := by
  cases r with
  | push port datum => exact absurd rfl (h port datum)
  | _ => rfl

/-- Whether a request neither sends anything nor asks how many edges an output has. -/
def Plain (r : Request) : Prop := Quiet r ∧ r.Blind

theorem plain_heads (names : List String) : (heads names).AsksOnly Plain := by
  induction names with
  | nil => trivial
  | cons name rest ih =>
    refine AsksOnly.bind ⟨⟨nofun, nofun⟩, fun info => ?_⟩ fun _ => ih.bind fun _ => trivial
    cases info with
    | error e => trivial
    | ok info =>
      dsimp only
      split
      · refine ⟨⟨nofun, nofun⟩, fun bound => ?_⟩
        match bound with
        | .ok true => exact ⟨⟨nofun, nofun⟩, fun token? => by cases token? <;> trivial⟩
        | .ok false | .error _ => trivial
      · trivial

theorem plain_survey : survey.AsksOnly Plain := by
  refine ⟨⟨nofun, nofun⟩, fun names => ?_⟩
  cases names with
  | error e => trivial
  | ok names => exact plain_heads names

theorem plain_drain (name : String) (count : Nat) : (drain name count).AsksOnly Plain := by
  induction count with
  | zero => trivial
  | succ count ih =>
    refine ⟨⟨nofun, nofun⟩, fun taken => ?_⟩
    match taken with
    | .ok (some _) => exact ih
    | .ok none | .error _ => trivial

theorem plain_drainStep (heads : List Head) : (drainStep heads).AsksOnly Plain := by
  induction heads with
  | nil => trivial
  | cons head rest ih => exact (plain_drain _ _).bind fun _ => ih

theorem posted_bind_done (h : Hook α) (result : β) (w : World) (name : String) :
    (h.bind fun _ => done result).posted w name = h.posted w name := by
  rw [posted, along_bind]
  exact List.append_nil _

/-! ## What the engine sends -/

theorem posted_sendEach (datum : Datum) {names : List String} (nodup : names.Nodup) (w : World)
    (name : String) :
    (sendEach datum names).posted w name =
      if name ∈ names ∧ (w.core.port? (.output name)).isSome then [datum] else [] := by
  induction names generalizing w with
  | nil => rw [if_neg fun h => List.not_mem_nil h.1]; rfl
  | cons first rest ih =>
    obtain ⟨hnot, hrest⟩ := List.nodup_cons.mp nodup
    -- A push moves a stamp, but it neither makes nor removes an output.
    have hdeclared : ((w.push first datum).2.core.port? (.output name)).isSome =
        (w.core.port? (.output name)).isSome := by
      rw [World.push_core, Core.port?_advance, Option.isSome_map]
    change w.posted (.push first datum) name ++ (sendEach datum rest).posted (w.push first datum).2 name =
      _
    rw [ih hrest, hdeclared, World.posted]
    by_cases hname : first = name
    · subst hname
      simp [hnot]
    · simp [hname, Ne.symm hname]

theorem posted_fault (datum : Datum) (heads : List Head) (w : World) (name : String) :
    (fault datum heads).posted w name =
      if name ≠ Core.heartbeat ∧ (w.core.port? (.output name)).isSome then [datum] else [] := by
  -- What is sent is sent before the inputs are drained.
  have hdrain : (drainStep heads).posted (sendToAll datum |>.run w).2 name = [] :=
    (plain_drainStep heads).along_eq_nil (fun w r hr => posted_of_quiet w hr.1 name) _
  have hsend : (sendToAll datum).posted w name = (sendEach datum w.outlets).posted w name := rfl
  rw [fault, posted, along_bind]
  change (sendToAll datum).posted w name ++ (drainStep heads).posted _ name = _
  rw [hdrain, List.append_nil, hsend, posted_sendEach datum w.nodup_outlets]
  refine if_congr ?_ rfl rfl
  rw [World.mem_outlets, Option.isSome_iff_exists]
  exact ⟨fun h => ⟨h.1.2, h.2⟩, fun h => ⟨⟨h.2, h.1⟩, h.2⟩⟩

theorem posted_beat (w : World) (name : String) :
    beat.posted w name =
      if name = Core.heartbeat ∧ (w.core.port? (.output name)).isSome then
        [heartbeatDatum w.core.complete]
      else [] := by
  change w.posted (.push Core.heartbeat (heartbeatDatum w.core.complete)) name ++ [] = _
  rw [List.append_nil, World.posted]
  simp only [eq_comm]

end Hook

namespace Process

variable {σ : Type}

/-- What a command sends from an output. -/
def posted (p : Process σ) (edges : Edges) (command : Command) (name : String) : List Datum :=
  (p.task command).hook.posted ⟨(p.task command).core, edges⟩ name

theorem posted_turn (p : Process σ) (edges : Edges) (name : String) :
    p.turn.posted (p.world edges) name =
      match (p.judge edges).fault? with
      | none => (p.plugin.step p.memory).posted (p.world edges) name
      | some (datum, _) =>
        if name ≠ Core.heartbeat ∧ (p.core.port? (.output name)).isSome then [datum] else [] := by
  -- Before there is a verdict, nothing is sent.
  have hsurvey : Hook.survey.posted (p.world edges) name = [] :=
    Hook.plain_survey.along_eq_nil (fun w r hr => Hook.posted_of_quiet w hr.1 name) _
  rw [turn, Hook.posted, Hook.along_bind, Hook.run_survey]
  change Hook.survey.posted _ name ++ (p.response _ (p.judge edges)).posted (p.world edges) name = _
  rw [hsurvey, List.nil_append]
  cases p.judge edges with
  | step => rfl
  | desync => exact (Hook.posted_bind_done _ _ _ _).trans (Hook.posted_fault _ _ _ _)
  | propagate status =>
    by_cases hstatus : status = .complete
    · rw [response, if_pos hstatus]
      exact (Hook.posted_bind_done _ _ _ _).trans (Hook.posted_fault _ _ _ _)
    · rw [response, if_neg hstatus]
      exact (Hook.posted_bind_done _ _ _ _).trans (Hook.posted_fault _ _ _ _)

theorem posted_report (ran : Except ProcessError Unit × σ) (w : World) (name : String) :
    (report ran).posted w name = if ran.1.isOk then Hook.beat.posted w name else [] := by
  obtain ⟨result, memory⟩ := ran
  cases result with
  | error e => rfl
  | ok _ => exact Hook.posted_bind_done _ _ _ _

theorem run_report (ran : Except ProcessError Unit × σ) (w : World) :
    (report ran).run w = (ran, if ran.1.isOk then w.beat else w) := by
  obtain ⟨result, memory⟩ := ran
  cases result <;> rfl

theorem run_round (p : Process σ) (edges : Edges) :
    p.round.run (p.world edges) =
      ((p.work.run (p.world edges)).1,
        if (p.work.run (p.world edges)).1.1.isOk then (p.work.run (p.world edges)).2.beat
        else (p.work.run (p.world edges)).2) :=
  (Hook.run_bind p.work report _).trans (run_report _ _)

/-- What a step sends from an output before its report. -/
def worked (p : Process σ) (edges : Edges) (name : String) : List Datum :=
  if p.core.complete = true then []
  else
    match (p.judge edges).fault? with
    | none => (p.plugin.step p.memory).posted (p.world edges) name
    | some (datum, _) => if name = Core.heartbeat then [] else [datum]

theorem posted_work {p : Process σ} (edges : Edges) {name : String}
    (declared : (p.core.port? (.output name)).isSome) :
    p.work.posted (p.world edges) name = p.worked edges name := by
  unfold work worked
  split
  · rfl
  · rw [posted_turn, declared]
    simp only [and_true, ite_not]

/-- A step sends what its turn sends, and its report if it has not failed. -/
theorem posted_step {p : Process σ} (running : p.core.state = .initialized) (edges : Edges)
    {name : String} (declared : (p.core.port? (.output name)).isSome) :
    p.posted edges .step name =
      p.worked edges name ++
        if name = Core.heartbeat ∧ (p.step edges).1.isOk then
          [heartbeatDatum (p.step edges).2.1.core.complete]
        else [] := by
  obtain ⟨port, hport⟩ := Option.isSome_iff_exists.mp declared
  -- What the turn leaves is what the report finds.
  obtain ⟨after, hafter, -⟩ := p.work.run_output (w := p.world edges) (.inl running) hport
  obtain ⟨hresult, -, -, halike⟩ := p.does_round edges running
  have hrun := p.run_round edges
  have hposted : p.posted edges .step name =
      p.work.posted (p.world edges) name ++
        (report (p.work.run (p.world edges)).1).posted (p.work.run (p.world edges)).2 name := by
    unfold posted task
    rw [if_pos running]
    exact Hook.along_bind _ _ _ _
  have hok : (p.step edges).1.isOk = (p.work.run (p.world edges)).1.1.isOk := by
    rw [hresult]
    exact congrArg (fun ran => ran.1.1.isOk) hrun
  have hcomplete : (p.step edges).2.1.core.complete =
      (p.work.run (p.world edges)).2.core.complete := by
    have hcore := halike.core_eq
    rw [Task.reach_none _ rfl] at hcore
    have hleft : (p.step edges).2.1.core = (p.round.run (p.world edges)).2.core := hcore.symm
    rw [hleft, hrun]
    split
    · exact (congrArg Core.complete (World.beat_core _)).trans rfl
    · rfl
  rw [hposted, posted_work edges declared, posted_report, Hook.posted_beat, hafter, hok, hcomplete]
  congr 1
  by_cases hname : name = Core.heartbeat <;> simp [hname]

/-! ## Stamps and edges -/

/-- What a command puts on an edge from one output. -/
def delivered (p : Process σ) (edges : Edges) (command : Command) (name : String) (edge : EdgeId) :
    List Stamped :=
  (p.task command).hook.delivered ⟨(p.task command).core, edges⟩ name edge

/-- But for a reset, a command begins with the core as it is, with its keys updated, or with an edge
bound. -/
theorem task_core (p : Process σ) {command : Command} (noReset : command ≠ .reset) :
    (p.task command).core = p.core ∨
      (∃ update, (p.task command).core = (p.retuned update).core) ∨
      ∃ key edge?, (p.task command).core = (p.core.connect key edge?).2 := by
  cases command with
  | reset => exact absurd rfl noReset
  | connect key edge? => exact .inr (.inr ⟨key, edge?, rfl⟩)
  | reconfigure update =>
    unfold task
    dsimp only
    split
    · exact .inr (.inl ⟨update, rfl⟩)
    · exact .inl rfl
  | configure | init | step | setType _ _ =>
    unfold task
    dsimp only
    split
    all_goals exact .inl rfl

theorem task_state (p : Process σ) {command : Command} (noReset : command ≠ .reset) :
    (p.task command).core.state = p.core.state := by
  rcases p.task_core noReset with h | ⟨update, h⟩ | ⟨key, edge?, h⟩
  · rw [h]
  · rw [h]
    rfl
  · rw [h]
    exact p.core.connect_state key edge?

theorem task_port (p : Process σ) {command : Command} (noReset : command ≠ .reset) (key : PortKey) :
    ∃ more, (p.task command).core.port? key =
        (p.core.port? key).map (fun port => { port with edges := port.edges ++ more }) ∧
      (p.core.state = .initialized → more = []) := by
  have hsame : p.core.port? key =
      (p.core.port? key).map fun port => { port with edges := port.edges ++ [] } := by
    simp
  -- Only a binding adds to the edges of a port, and none comes to a running process.
  rcases p.task_core noReset with h | ⟨update, h⟩ | ⟨other, edge?, h⟩
  · exact ⟨[], h ▸ hsame, fun _ => rfl⟩
  · exact ⟨[], h ▸ hsame, fun _ => rfl⟩
  · exact h ▸ p.core.connect_port other edge? key

theorem task_port_of_running {p : Process σ} {command : Command} (noReset : command ≠ .reset)
    (running : p.core.state = .initialized) (key : PortKey) :
    (p.task command).core.port? key = p.core.port? key := by
  obtain ⟨more, hmore, hnone⟩ := p.task_port noReset key
  rw [hmore, hnone running]
  simp

theorem perform_port (p : Process σ) (edges : Edges) (command : Command) (key : PortKey) :
    (p.perform edges command).2.1.core.port? key =
      ((p.task command).hook.run ⟨(p.task command).core, edges⟩).2.core.port? key := by
  have hcore := (p.perform_task edges command).alike.core_eq
  have hleft : (p.perform edges command).2.1.core = _ := hcore.symm
  rw [hleft]
  unfold Task.reach
  split <;> rfl

/-- But for a reset, an output that stays is as many data farther on as it sent. -/
theorem perform_output {p : Process σ} {command : Command} (noReset : command ≠ .reset)
    {name : String} (lasting : p.core.state = .initialized ∨ name = Core.heartbeat) {port : Port}
    (hport : p.core.port? (.output name) = some port) (edges : Edges) :
    ∃ after, (p.perform edges command).2.1.core.port? (.output name) = some after ∧
      after.stamp = port.stamp + (p.posted edges command name).length ∧
      (p.core.state = .initialized → after.edges = port.edges) := by
  -- The task may begin with an edge bound. From there on the requests count.
  obtain ⟨more, hbegin, hmore⟩ := p.task_port noReset (.output name)
  rw [hport, Option.map_some] at hbegin
  obtain ⟨after, hafter, hedges, hstamp⟩ := (p.task command).hook.run_output
    (w := ⟨(p.task command).core, edges⟩) (p.task_state noReset ▸ lasting) hbegin
  refine ⟨after, (p.perform_port edges command _).trans hafter, hstamp, fun running => ?_⟩
  rw [hedges, hmore running, List.append_nil]

theorem reset_output {p : Process σ} {port : Port}
    (hport : p.core.port? (.output Core.heartbeat) = some port) (edges : Edges) :
    ∃ after, (p.perform edges .reset).2.1.core.port? (.output Core.heartbeat) = some after ∧
      after.stamp = (p.posted edges .reset Core.heartbeat).length := by
  -- The hook of the reset finds the stamp taken back already.
  have hbegin := p.port?_rewind (.output Core.heartbeat)
  rw [hport, Option.map_some] at hbegin
  obtain ⟨after, hafter, -, hstamp⟩ := (p.task .reset).hook.run_output
    (w := ⟨p.rewind.core, edges⟩) (.inr rfl) hbegin
  exact ⟨after, (p.perform_port edges .reset _).trans hafter, hstamp.trans (Nat.zero_add _)⟩

/-- What a running process sends from an output goes to the edges that it has, under consecutive
stamps. -/
theorem delivered_eq {p : Process σ} {command : Command} (noReset : command ≠ .reset)
    (running : p.core.state = .initialized) {name : String} {port : Port}
    (hport : p.core.port? (.output name) = some port) (edges : Edges) (edge : EdgeId) :
    p.delivered edges command name edge =
      (stampFrom port.stamp (p.posted edges command name)).flatMap
        (List.replicate (port.edges.count edge)) := by
  have hbegin := (task_port_of_running noReset running (.output name)).trans hport
  exact (p.task command).hook.delivered_eq (.inl ((p.task_state noReset).trans running)) hbegin edge

def taken (p : Process σ) (edges : Edges) (command : Command) (edge : EdgeId) : List Stamped :=
  (p.task command).hook.taken ⟨(p.task command).core, edges⟩ edge

/-- From an edge that none of its outputs has, a running process takes only. -/
theorem perform_queue_of_free {p : Process σ} {command : Command} (noReset : command ≠ .reset)
    (running : p.core.state = .initialized) {edge : EdgeId}
    (free : ∀ name port, p.core.port? (.output name) = some port → edge ∉ port.edges)
    (edges : Edges) :
    (p.perform edges command).2.2.queue edge =
      (edges.queue edge).drop (p.taken edges command edge).length := by
  have hqueue := (p.perform_task edges command).alike.queue_eq edge
  apply hqueue.symm.trans
  apply Hook.queue_of_free _ ((p.task_state noReset).trans running)
  intro name port hport
  exact free name port ((task_port_of_running noReset running _).symm.trans hport)

/-- In a step that runs its hook, only the hook takes anything. -/
theorem step_queue_of_hook {p : Process σ} {edges : Edges} (running : p.core.state = .initialized)
    (incomplete : p.core.complete = false) (hjudge : p.judge edges = .step) {edge : EdgeId}
    (free : ∀ name port, p.core.port? (.output name) = some port → edge ∉ port.edges) :
    (p.step edges).2.2.queue edge =
      (edges.queue edge).drop ((p.plugin.step p.memory).taken (p.world edges) edge).length := by
  have hhook : (p.react edges p.plugin.step).2.2.queue edge = _ :=
    (p.plugin.step p.memory).queue_of_free (w := p.world edges) running free
  rw [step_of_act running incomplete, act, hjudge]
  dsimp only
  cases hreact : p.react edges p.plugin.step with
  | mk result after =>
    rw [hreact] at hhook
    cases result with
    | error e => exact hhook
    | ok _ =>
      -- The report does not go to the edge either.
      have hquiet : ∀ port, (after.1.world after.2).core.port? (.output Core.heartbeat) = some port →
          edge ∉ port.edges :=
        (react_frozen running hreact).free (free Core.heartbeat)
      refine (World.beat_queue _ edge).trans ?_
      rw [Core.sent_of_free hquiet, List.append_nil]
      exact hhook

/-- To an edge that no other port has, a running process adds what its output sends. -/
theorem perform_queue_of_alone {p : Process σ} {command : Command} (noReset : command ≠ .reset)
    (running : p.core.state = .initialized) {name : String} {port : Port} {edge : EdgeId}
    (hport : p.core.port? (.output name) = some port) (once : port.edges.count edge = 1)
    (alone : ∀ key other, key ≠ .output name → p.core.port? key = some other → edge ∉ other.edges)
    (edges : Edges) :
    (p.perform edges command).2.2.queue edge =
      edges.queue edge ++ stampFrom port.stamp (p.posted edges command name) := by
  have hstate := (p.task_state noReset).trans running
  have hother {key : PortKey} (hkey : key ≠ .output name) (other : Port)
      (h : (p.task command).core.port? key = some other) : edge ∉ other.edges :=
    alone key other hkey ((task_port_of_running noReset running key).symm.trans h)
  have hqueue := (p.perform_task edges command).alike.queue_eq edge
  -- No input has the edge, so nothing is taken from it, and no other output, so nothing else comes.
  have htaken : p.taken edges command edge = [] :=
    Hook.taken_of_free _ hstate fun _ => hother nofun
  have hplaced : (p.task command).hook.placed ⟨(p.task command).core, edges⟩ edge =
      p.delivered edges command name edge :=
    Hook.placed_eq_delivered _ hstate fun out other hout =>
      hother (fun h => hout (congrArg PortKey.name h)) other
  have hrun := (p.task command).hook.run_queue ⟨(p.task command).core, edges⟩ edge
  rw [hplaced, delivered_eq noReset running hport, once] at hrun
  change p.taken edges command edge ++ _ = _ at hrun
  rw [htaken, List.nil_append] at hrun
  apply hqueue.symm.trans
  apply hrun.trans
  congr 1
  exact List.flatMap_singleton' _

/-- What some commands send from an output. -/
def postedAlong (p : Process σ) (name : String) : List (Edges × Command) → List Datum
  | [] => []
  | (edges, command) :: rest =>
    p.posted edges command name ++ (p.perform edges command).2.1.postedAlong name rest

/-- What some commands put on an edge from one output. -/
def deliveredAlong (p : Process σ) (name : String) (edge : EdgeId) :
    List (Edges × Command) → List Stamped
  | [] => []
  | (edges, command) :: rest =>
    p.delivered edges command name edge ++ (p.perform edges command).2.1.deliveredAlong name edge rest

/-- As long as a process runs, its outputs send under consecutive stamps. -/
theorem deliveredAlong_eq {p : Process σ} {commands : List (Edges × Command)}
    (noReset : NoReset commands) (running : p.core.state = .initialized) {name : String} {port : Port}
    (hport : p.core.port? (.output name) = some port) (edge : EdgeId) :
    p.deliveredAlong name edge commands =
      (stampFrom port.stamp (p.postedAlong name commands)).flatMap
        (List.replicate (port.edges.count edge)) := by
  induction commands generalizing p port with
  | nil => rfl
  | cons given rest ih =>
    obtain ⟨edges, command⟩ := given
    obtain ⟨hhere, hlater⟩ := List.forall_mem_cons.mp noReset
    obtain ⟨after, hafter, hstamp, hedges⟩ := perform_output hhere (.inl running) hport edges
    have hrest := ih hlater (perform_running running edges hhere) hafter
    rw [hstamp, hedges running] at hrest
    rw [deliveredAlong, postedAlong, stampFrom_append, List.flatMap_append, hrest,
      delivered_eq hhere running hport]

end Process

end Dataflow
