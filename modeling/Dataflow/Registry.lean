import Dataflow.Config.Basic

/-!
# Registries of keys

A process declares the keys it understands, each once, with a default text, and says which of them
may be tuned after its initialization. The text of a declared key is the configured one, or else its
default. Only a reconfiguration changes texts, and only those of tunable keys.
-/

namespace Dataflow

/-- What is known of a declared key. -/
structure KeyInfo where
  default : String
  description : String
  tunable : Bool
  deriving DecidableEq

/-- Declared keys, and the texts that are configured. -/
structure Registry where
  infos : NameMap KeyInfo
  values : Config

namespace Registry

/-- A registry without keys over a configuration. -/
def ofConfig (values : Config) : Registry := ⟨∅, values⟩

/-- Whether a key is declared. -/
def isDeclared (r : Registry) (key : String) : Bool := r.infos.contains key

/-- Declare a key. -/
def declare (r : Registry) (key : String) (info : KeyInfo) : Except ConfigError Registry :=
  if r.isDeclared key then .error (.duplicateKey key)
  else .ok { r with infos := r.infos.insert key info }

/-- What is known of a key. -/
def info (r : Registry) (key : String) : Except ConfigError KeyInfo :=
  match r.infos[key]? with
  | some info => .ok info
  | none => .error (.unknownKey key)

/-- The text of a declared key. -/
def raw (r : Registry) (key : String) : Except ConfigError String :=
  match r.infos[key]? with
  | some info => .ok ((r.values.get? key).getD info.default)
  | none => .error (.unknownKey key)

/-- A value of the text of a declared key. -/
def value {α : Type} (r : Registry) (read : String → Except ReadFault α) (key : String) :
    Except ConfigError α :=
  match r.raw key with
  | .ok raw => readSetting read key raw
  | .error e => .error e

/-- The declared keys in their order. -/
def available (r : Registry) : List String := r.infos.keys

/-- Whether a key is declared to be tunable. -/
def isTunable (r : Registry) (key : String) : Bool :=
  match r.infos[key]? with
  | some info => info.tunable
  | none => false

/-- The tunable keys in their order. -/
def tunable (r : Registry) : List String := r.available.filter r.isTunable

/-- The part of an update that counts: tunable keys with another text than the configured one. -/
def changes (r : Registry) (update : Config) : List (String × String) :=
  update.toList.filter fun pair => r.isTunable pair.1 ∧ r.values.get? pair.1 ≠ some pair.2

/-- Apply an update. The keys that changed are given in their order. -/
def reconfigure (r : Registry) (update : Config) : List String × Registry :=
  let changes := r.changes update
  (changes.map Prod.fst,
   { r with values := changes.foldl (fun c pair => c.set pair.1 pair.2) r.values })

end Registry

end Dataflow
