import Dataflow.Hook

/-!
# Actions of scripts

A script is a plugin that is given as data: each hook is a list of actions, done one after the
other. Actions look at the core and change it, move datums, compute with variables, and choose what
to do next. Every action leaves an entry in a log.
-/

namespace Dataflow.Script

/-- A number in an action: a literal, or a variable that holds one. -/
inductive Operand where
  | literal (value : Int64)
  | stored (name : String)
  deriving DecidableEq

/-- What a variable holds. -/
inductive Variable where
  | integer (value : Int64)
  | datum (value : Datum)
  deriving DecidableEq

/-- Actions that look at the core, or take datums from its inputs. -/
inductive Query where
  | name
  | typeName
  | state
  | isComplete
  | level
  | portNames (direction : Direction)
  | config
  | debug
  | info (key : PortKey)
  | hasEdge (port : String)
  | countEdges (port : String)
  | nextStamp (port : String)
  | peek (port : String) (index : Nat)
  | peekDatum (port : String) (index : Nat)
  | value (key : String) (kind : ValueKind)
  | grab (port : String)
  | grabAs (port : String) (kind : Payload.Kind)
  | grabInput (port : String) (kind : Scalar.Kind)

/-- Actions that do not choose between others. An action with a target stores its result there. -/
inductive Basic where
  | query (query : Query) (target? : Option String)
  | grabDatum (port : String) (target? : Option String)
  | declare (direction : Direction) (port : String) (source : PortSource)
  | remove (key : PortKey)
  | setFrequency (key : PortKey) (frequency : String)
  | declareKey (key : String) (info : KeyInfo)
  | setLevel (level : CheckLevel)
  | markComplete
  | resolve (key : PortKey) (proposed : DataType)
  | resolveFrom (port : String) (key : String)
  | push (port : String) (datum : Datum)
  | pushAs (port : String) (value : Scalar)
  | pushVariable (port : String) (name : String)
  | add (a b : Operand) (target? : Option String)
  | fail (message : String) (contexts : List String)
  | failWith (error : ProcessError)

/-- How two numbers are compared. -/
inductive Comparison where
  | greater
  | less
  | equal
  deriving DecidableEq

/-- Whether a comparison holds. -/
def Comparison.holds : Comparison → Int64 → Int64 → Bool
  | greater, a, b => b < a
  | less, a, b => a < b
  | equal, a, b => a = b

/-- An action: a basic one, of which a failure may be passed over, or a choice between lists of
actions by two numbers or by the status of a stored datum. -/
inductive Action where
  | basic (action : Basic) (lenient : Bool)
  | branch (a : Operand) (comparison : Comparison) (b : Operand) (yes no : List Action)
  | branchStatus (name : String) (status : Status) (yes no : List Action)

/-- The name of a query in the log. -/
def Query.label : Query → String
  | name => "name"
  | typeName => "type"
  | state => "state"
  | isComplete => "is_complete"
  | level => "level"
  | portNames direction => direction.text ++ "_ports"
  | config => "get_config"
  | debug => "debug"
  | info key => key.direction.text ++ "_info"
  | hasEdge _ => "has_input_edge"
  | countEdges _ => "count_output_edges"
  | nextStamp _ => "stamp"
  | peek _ _ => "peek"
  | peekDatum _ _ => "peek_datum"
  | value _ _ => "value"
  | grab _ => "grab"
  | grabAs _ _ => "grab_as"
  | grabInput _ _ => "grab_input_as"

/-- The name of a basic action in the log. -/
def Basic.label : Basic → String
  | query q _ => q.label
  | grabDatum _ _ => "grab_datum"
  | declare direction _ _ => "declare_" ++ direction.text
  | remove key => "remove_" ++ key.direction.text
  | setFrequency key _ => "set_" ++ key.direction.text ++ "_frequency"
  | declareKey _ _ => "declare_key"
  | setLevel _ => "set_level"
  | markComplete => "complete"
  | resolve key _ => "resolve_" ++ key.direction.text
  | resolveFrom _ _ => "resolve_output_from"
  | push _ _ => "push"
  | pushAs _ _ => "push_as"
  | pushVariable _ _ => "push_var"
  | add _ _ _ => "add"
  | fail _ _ => "fail"
  | failWith _ => "fail_with"

/-- The result of an action. -/
inductive Answer where
  | unit
  | truth (value : Bool)
  | natural (value : Nat)
  | integer (value : Int64)
  | text (value : String)
  | texts (values : List String)
  | config (value : Config)
  | port (info : PortInfo)
  | token? (token? : Option Stamped)
  | token (token : Stamped)
  | datum? (datum? : Option Datum)
  | datum (datum : Datum)
  | value (value : Value)
  | payload (value : Payload)

/-- Why an action failed. A hook cannot wait, so that taking from an empty edge fails, too. -/
inductive Refusal where
  | failed (error : ProcessError)
  | wouldBlock
  deriving DecidableEq

/-- The error of a hook in which an action failed. -/
def Refusal.error : Refusal → ProcessError
  | failed error => error
  | wouldBlock => .plugin "would block" []

/-- An entry of the log: a hook that was run, the update it was run for, a type that was proposed,
or an action and what became of it. -/
inductive Entry where
  | hook (name : String)
  | update (config : Config)
  | proposal (key : PortKey) (proposed : DataType)
  | action (label : String) (outcome : Except Refusal Answer)

end Dataflow.Script
