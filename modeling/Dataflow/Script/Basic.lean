import Dataflow.Process.Plugin
import Dataflow.Script.Memory

/-!
# Scripts

A script gives the actions of each hook of a process, and a policy for the types that are proposed
for its ports.
-/

namespace Dataflow

namespace Script

/-- How proposed types are dealt with: which ones are considered at all, what is done before the
answer, and the answer, which is the core's own if none is given. -/
structure Policy where
  only? : Option (List String)
  actions : List Action
  result? : Option Bool

/-- The policy that leaves everything to the core. -/
def Policy.standard : Policy := ⟨none, [], none⟩

/-- Ask a request, and make an answer of the reply. -/
def consult (r : Request) (answer : r.Reply → Except Refusal Answer) :
    Hook (Except Refusal Answer) :=
  .ask r fun reply => .done (reply.mapError .failed >>= answer)

/-- The answer for something taken from an edge. -/
def taken {α : Type} (answer : α → Answer) (a? : Option α) : Except Refusal Answer :=
  match a? with
  | some a => .ok (answer a)
  | none => .error .wouldBlock

/-- Answer a query. -/
def Query.run : Query → Hook (Except Refusal Answer)
  | .name => consult .name fun s => .ok (.text s)
  | .typeName => consult .typeName fun s => .ok (.text s)
  | .state => consult .state fun state => .ok (.text state.text)
  | .isComplete => consult .isComplete fun b => .ok (.truth b)
  | .level => consult .level fun level => .ok (.text level.text)
  | .portNames direction => consult (.portNames direction) fun names => .ok (.texts names)
  | .config => consult .config fun c => .ok (.config c)
  | .debug => consult .debug fun s => .ok (.text s)
  | .info key => consult (.info key) fun info => .ok (.port info)
  | .hasEdge port => consult (.hasEdge port) fun b => .ok (.truth b)
  | .countEdges port => consult (.countEdges port) fun n => .ok (.natural n)
  | .nextStamp port => consult (.nextStamp port) fun n => .ok (.natural n)
  | .peek port index => consult (.peek port index) fun token? => .ok (.token? token?)
  | .peekDatum port index =>
    consult (.peek port index) fun token? => .ok (.datum? (token?.map Stamped.datum))
  | .value key kind => consult (.value key kind) fun value => .ok (.value value)
  | .grab port => consult (.grab port) (taken .token)
  | .grabAs port kind => consult (.grabAs port kind) (taken .payload)
  | .grabInput port kind => consult (.grabInput port kind) (taken fun s => .payload (.scalar s))

/-- Ask a request whose reply is of no interest. -/
def order (r : Request) : Hook (Except Refusal Answer) := consult r fun _ => .ok .unit

/-- Do a basic action. -/
def Basic.run (m : Memory) : Basic → Hook (Except Refusal Answer × Memory)
  | .query q target? => do
    let outcome ← q.run
    match outcome with
    | .ok answer => return (outcome, answer.number?.elim m fun n => m.store target? (.integer n))
    | .error _ => return (outcome, m)
  | .grabDatum port target? => do
    let outcome ← consult (.grab port) (taken fun token => .datum token.datum)
    match outcome with
    | .ok (.datum datum) => return (outcome, m.store target? (.datum datum))
    | _ => return (outcome, m)
  | .declare direction port source =>
    match source.read with
    | .ok info => return (← order (.declare ⟨direction, port⟩ info), m)
    | .error e => return (.error (.failed e), m)
  | .remove key => return (← order (.remove key), m)
  | .setFrequency key text =>
    match Frequency.read text with
    | .ok frequency => return (← order (.setFrequency key frequency), m)
    | .error e => return (.error (.failed e), m)
  | .declareKey key info => return (← order (.declareKey key info), m)
  | .setLevel level => return (← order (.setLevel level), m)
  | .markComplete => return (← order .markComplete, m)
  | .resolve key proposed =>
    return (← consult (.resolve key proposed) fun accepted => .ok (.truth accepted), m)
  | .resolveFrom port key => do
    match ← Hook.call (.value key .text) with
    | .ok (.text type) =>
      let outcome ← consult (.resolve (.output port) (.concrete type)) fun accepted =>
        .ok (.truth accepted)
      return (outcome, m)
    | .ok _ => return (.ok (.truth false), m)
    | .error e => return (.error (.failed e), m)
  | .push port datum => return (← order (.push port datum), m)
  | .pushAs port value => return (← order (.push port (.scalar value)), m)
  | .pushVariable port name => return (← order (.push port (m.datum name)), m)
  | .add a b target? =>
    let sum := m.number a + m.number b
    return (.ok (.integer sum), m.store target? (.integer sum))
  | .fail message contexts => return (.error (.failed (.plugin message contexts)), m)
  | .failWith error => return (.error (.failed error), m)

/-- Write an entry into the log. -/
def note (entry : Entry) : Reaction Memory Unit := fun m => return (.ok (), m.note entry)

/-- What the log says of a choice. -/
def chosen (yes : Bool) : Except Refusal Answer := .ok (.text (if yes then "then" else "else"))

mutual

/-- Do an action, and write what became of it into the log. -/
def Action.run : Action → Reaction Memory Unit
  | .basic action lenient => fun m => do
    let (outcome, m) ← action.run m
    let result := match outcome with
      | .ok _ => .ok ()
      | .error refusal => if lenient then .ok () else .error refusal.error
    return (result, m.note (.action action.label outcome))
  | .branch a comparison b yes no => fun m =>
    if comparison.holds (m.number a) (m.number b) then
      runAll yes (m.note (.action "if" (chosen true)))
    else runAll no (m.note (.action "if" (chosen false)))
  | .branchStatus name status yes no => fun m =>
    if m.hasStatus name status then
      runAll yes (m.note (.action "if_status" (chosen true)))
    else runAll no (m.note (.action "if_status" (chosen false)))

/-- Do actions one after the other, up to the first that fails. -/
def runAll : List Action → Reaction Memory Unit
  | [] => pure ()
  | action :: rest => do
    action.run
    runAll rest

end

/-- A hook that tells its name and does some actions. -/
def hook (name : String) (actions : List Action) : Reaction Memory Unit := do
  note (.hook name)
  runAll actions

/-- Deal with a proposed type. -/
def Policy.propose (policy : Policy) (key : PortKey) (proposed : DataType) :
    Reaction Memory Bool := do
  note (.proposal key proposed)
  if (policy.only?.elim true fun texts => texts.contains proposed.text) then
    runAll policy.actions
    match policy.result? with
    | some result => return result
    | none => Reaction.request (.resolve key proposed)
  else return false

end Script

/-- The actions of the hooks of a process. -/
structure Script where
  declare : List Script.Action
  configure : List Script.Action
  init : List Script.Action
  step : List Script.Action
  reset : List Script.Action
  reconfigure : List Script.Action
  properties : Properties
  inputPolicy : Script.Policy
  outputPolicy : Script.Policy

/-- The plugin of a script. -/
def Script.plugin (s : Script) : Plugin Script.Memory where
  declare := hook "declare" s.declare
  configure := hook "configure" s.configure
  init := hook "init" s.init
  step := hook "step" s.step
  reset := hook "reset" s.reset
  reconfigure := fun update => do
    note (.update update)
    hook "reconfigure" s.reconfigure
  properties := fun _ => s.properties
  proposeType := fun key proposed =>
    match key.direction with
    | .input => s.inputPolicy.propose key proposed
    | .output => s.outputPolicy.propose key proposed

end Dataflow
