import Dataflow.Script.Action

/-!
# What a script remembers

Variables live as long as the process. Entries are added to the log at its end, so that they are
kept with the latest first.
-/

namespace Dataflow.Script

/-- Variables and the log. -/
structure Memory where
  bindings : NameMap Variable
  latestFirst : List Entry

namespace Memory

/-- Nothing remembered. -/
def empty : Memory := ⟨∅, []⟩

/-- The log, in the order in which the entries were made. -/
def log (m : Memory) : List Entry := m.latestFirst.reverse

/-- Add an entry to the log. -/
def note (m : Memory) (entry : Entry) : Memory :=
  { m with latestFirst := entry :: m.latestFirst }

/-- A note goes to the end of the log. -/
@[simp] theorem log_note (m : Memory) (entry : Entry) : (m.note entry).log = m.log ++ [entry] := by
  simp [log, note]

/-- The memory with an empty log. -/
def forgetLog (m : Memory) : Memory := { m with latestFirst := [] }

/-- Store a variable, if there is a target for it. -/
def store (m : Memory) (target? : Option String) (value : Variable) : Memory :=
  match target? with
  | some name => { m with bindings := m.bindings.insert name value }
  | none => m

/-- The number that an operand stands for. A variable that holds none counts as zero. -/
def number (m : Memory) : Operand → Int64
  | .literal value => value
  | .stored name =>
    match m.bindings[name]? with
    | some (.integer value) => value
    | some (.datum _) | none => 0

/-- The datum that a variable stands for. A variable that holds none counts as the number zero. -/
def datum (m : Memory) (name : String) : Datum :=
  match m.bindings[name]? with
  | some (.datum datum) => datum
  | some (.integer value) => .scalar (.i64 value)
  | none => .scalar (.i64 0)

/-- Whether a variable holds a datum of some status. -/
def hasStatus (m : Memory) (name : String) (status : Status) : Bool :=
  match m.bindings[name]? with
  | some (.datum datum) => datum.status = status
  | some (.integer _) | none => false

end Memory

/-- A whole number as a number of 64 bits, if it is one. -/
def fitted? (n : Int) : Option Int64 :=
  if -Int.ofNat IntKind.i64.depth ≤ n ∧ n ≤ Int.ofNat IntKind.i64.greatest then some (.ofInt n)
  else none

/-- The number that an answer is, if it is one of 64 bits. -/
def Answer.number? : Answer → Option Int64
  | .natural n => fitted? n
  | .integer n => some n
  | .value (.int n) => fitted? n
  | .payload (.scalar (.i64 n)) => some n
  | .payload (.scalar (.i32 n)) => some n.toInt64
  | .payload (.scalar (.u8 n)) => fitted? n.toNat
  | .payload (.scalar (.u64 n)) => fitted? n.toNat
  | _ => none

end Dataflow.Script
