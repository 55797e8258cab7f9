import Std.Data.ExtTreeMap

/-!
# Reading a map after a change

The keys of all maps here are compared by a lawful order, so that a look-up may ask whether two keys
are equal in place of comparing them.
-/

namespace Dataflow.Lookup

variable {α β : Type} {cmp : α → α → Ordering} [Std.TransCmp cmp] [Std.LawfulEqCmp cmp]
  [DecidableEq α]

theorem getElem?_insert (m : Std.ExtTreeMap α β cmp) (key : α) (value : β) (other : α) :
    (m.insert key value)[other]? = if other = key then some value else m[other]? := by
  rw [Std.ExtTreeMap.getElem?_insert]
  by_cases h : other = key
  · rw [if_pos h, if_pos (Std.LawfulEqCmp.compare_eq_iff_eq.mpr h.symm)]
  · rw [if_neg h, if_neg (fun hc => h (Std.LawfulEqCmp.compare_eq_iff_eq.mp hc).symm)]

theorem getElem?_erase (m : Std.ExtTreeMap α β cmp) (key other : α) :
    (m.erase key)[other]? = if other = key then none else m[other]? := by
  rw [Std.ExtTreeMap.getElem?_erase]
  by_cases h : other = key
  · rw [if_pos h, if_pos (Std.LawfulEqCmp.compare_eq_iff_eq.mpr h.symm)]
  · rw [if_neg h, if_neg (fun hc => h (Std.LawfulEqCmp.compare_eq_iff_eq.mp hc).symm)]

theorem getElem?_modify (m : Std.ExtTreeMap α β cmp) (key : α) (change : β → β) (other : α) :
    (m.modify key change)[other]? = if other = key then (m[other]?).map change else m[other]? := by
  rw [Std.ExtTreeMap.getElem?_modify]
  by_cases h : other = key
  · rw [if_pos h, if_pos (Std.LawfulEqCmp.compare_eq_iff_eq.mpr h.symm), h]
  · rw [if_neg h, if_neg (fun hc => h (Std.LawfulEqCmp.compare_eq_iff_eq.mp hc).symm)]

/-- A key that comes and goes leaves nothing behind. -/
theorem erase_insert {m : Std.ExtTreeMap α β cmp} {key : α} (h : m[key]? = none) (value : β) :
    (m.insert key value).erase key = m := by
  apply Std.ExtTreeMap.ext_getElem?
  intro other
  rw [getElem?_erase, getElem?_insert]
  split
  · rename_i hother
    rw [hother, h]
  · rfl

end Dataflow.Lookup
