import Std.Data.ExtTreeMap

/-!
# Maps from names

Whatever is named in a process (settings, keys, tags) is kept in a map that is read in the order of
the names, character by character by code point. Two maps with the same entries are equal.
-/

namespace Dataflow

/-- A finite map from names, in the order of the names. -/
abbrev NameMap (α : Type) := Std.ExtTreeMap String α compare

end Dataflow
