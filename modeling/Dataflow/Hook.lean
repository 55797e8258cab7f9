import Dataflow.Core.Declare
import Dataflow.Core.Negotiate
import Dataflow.Core.World

/-!
# Hooks

What a process does of its own is a *hook*: a program that asks requests of the core of the process
and goes on with the reply to each. A hook knows the core by its requests alone. A failed request is
a reply like any other; whether the hook goes on after it is the hook's own affair.
-/

namespace Dataflow

/-- What a hook may ask of the core. -/
inductive Request where
  | name
  | typeName
  | state
  | isComplete
  | level
  | portNames (direction : Direction)
  | config
  | debug
  | info (key : PortKey)
  | hasEdge (port : String)
  | countEdges (port : String)
  | nextStamp (port : String)
  | value (key : String) (kind : ValueKind)
  | peek (port : String) (index : Nat)
  | grab (port : String)
  | grabAs (port : String) (kind : Payload.Kind)
  | grabInput (port : String) (kind : Scalar.Kind)
  | declare (key : PortKey) (info : PortInfo)
  | remove (key : PortKey)
  | setFrequency (key : PortKey) (frequency : Frequency)
  | declareKey (key : String) (info : KeyInfo)
  | setLevel (level : CheckLevel)
  | markComplete
  | resolve (key : PortKey) (proposed : DataType)
  | push (port : String) (datum : Datum)

/-- The result of a request that does not fail. -/
abbrev Request.Reply : Request → Type
  | name | typeName | debug => String
  | state => State
  | isComplete | hasEdge _ | resolve _ _ => Bool
  | level => CheckLevel
  | portNames _ => List String
  | config => Config
  | info _ => PortInfo
  | countEdges _ => Nat
  | nextStamp _ => Stamp
  | value _ _ => Value
  | peek _ _ | grab _ => Option Stamped
  | grabAs _ _ => Option Payload
  | grabInput _ _ => Option Scalar
  | declare _ _ | remove _ | setFrequency _ _ | declareKey _ _ | setLevel _ | markComplete
  | push _ _ => Unit

namespace World

/-- Give the result of an attempt on the core, and put the core it leaves in place. -/
def onCore {α : Type} (w : World) (attempt : Attempt Core α) : Attempt World α :=
  (attempt.1, { w with core := attempt.2 })

/-- Answer a request. -/
def perform (w : World) : (r : Request) → Attempt World r.Reply
  | .name => (.ok w.core.name, w)
  | .typeName => (.ok w.core.typeName, w)
  | .state => (.ok w.core.state, w)
  | .isComplete => (.ok w.core.complete, w)
  | .level => (.ok w.core.level, w)
  | .portNames direction => (.ok (w.core.portNames direction), w)
  | .config => (.ok w.core.config, w)
  | .debug => (.ok w.core.debug, w)
  | .info key => (w.core.info key, w)
  | .hasEdge port => ((· != 0) <$> w.core.edgeCount (.input port), w)
  | .countEdges port => (w.core.edgeCount (.output port), w)
  | .nextStamp port => (w.core.nextStamp port, w)
  | .value key kind => (w.core.value kind.read key, w)
  | .peek port index => (w.peek port index, w)
  | .grab port => w.grab port
  | .grabAs port kind => w.grabAs port kind
  | .grabInput port kind => w.grabInput port kind
  | .declare key info => w.onCore (w.core.declare key info)
  | .remove key => w.onCore (w.core.remove key)
  | .setFrequency key frequency => w.onCore (w.core.setFrequency key frequency)
  | .declareKey key info => w.onCore (w.core.declareKey key info)
  | .setLevel level => (.ok (), { w with core := w.core.setLevel level })
  | .markComplete => (.ok (), { w with core := w.core.markComplete })
  | .resolve key proposed => w.onCore (w.core.resolve key proposed)
  | .push port datum => w.push port datum

end World

/-- A program over requests: it is done, or it asks and goes on with the reply. -/
inductive Hook (α : Type) where
  | done (result : α)
  | ask (request : Request) (next : Except ProcessError request.Reply → Hook α)

namespace Hook

/-- Go on with the result of a hook. -/
def bind {α β : Type} : Hook α → (α → Hook β) → Hook β
  | done result, rest => rest result
  | ask request next, rest => ask request fun reply => (next reply).bind rest

instance : Monad Hook where
  pure := done
  bind := bind

/-- The reply to a single request. -/
def call (request : Request) : Hook (Except ProcessError request.Reply) := ask request done

/-- Run a hook in a world. -/
def run {α : Type} : Hook α → World → α × World
  | done result, w => (result, w)
  | ask request next, w =>
    let (reply, w) := w.perform request
    (next reply).run w

@[simp] theorem run_done {α : Type} (result : α) (w : World) : (done result).run w = (result, w) :=
  rfl

@[simp] theorem run_ask {α : Type} (request : Request)
    (next : Except ProcessError request.Reply → Hook α) (w : World) :
    (ask request next).run w = (next (w.perform request).1).run (w.perform request).2 := rfl

/-- A hook runs in its own world first, and the rest in the world it leaves. -/
@[simp] theorem run_bind {α β : Type} (h : Hook α) (rest : α → Hook β) (w : World) :
    (h.bind rest).run w = (rest (h.run w).1).run (h.run w).2 := by
  induction h generalizing w with
  | done result => rfl
  | ask request next ih => simp only [bind, run_ask, ih]

theorem bind_done {α : Type} (h : Hook α) : h.bind done = h := by
  induction h with
  | done result => rfl
  | ask request next ih => simp only [bind, ih]

theorem bind_assoc {α β γ : Type} (h : Hook α) (f : α → Hook β) (g : β → Hook γ) :
    (h.bind f).bind g = h.bind fun a => (f a).bind g := by
  induction h with
  | done result => rfl
  | ask request next ih => simp only [bind, ih]

instance : LawfulMonad Hook :=
  LawfulMonad.mk' Hook (fun h => bind_done h) (fun _ _ => rfl) (fun h f g => bind_assoc h f g)

end Hook

/-- A hook with a memory of its own. It may fail, and keeps what it remembers if it does. -/
abbrev Reaction (σ α : Type) := ExceptT ProcessError (StateT σ Hook) α

namespace Reaction

/-- The result of a request, or its failure. -/
def request {σ : Type} (r : Request) : Reaction σ r.Reply :=
  fun memory => do
    let reply ← Hook.call r
    return (reply, memory)

end Reaction

end Dataflow
