import Mathlib.Logic.Function.Basic
import Dataflow.Port.DataType

/-!
# Texts of types

Every text denotes a type, and the type has this text. The other way round a named type is taken for
a sentinel if its name is the text of one, and these names are the only ones that get lost.
-/

namespace Dataflow.DataType

/-- The texts that name no type: those of the sentinels, and all that start as the text of a
flow-dependent type does. -/
def Reserved (name : String) : Prop :=
  name = "_any" ∨ name = "_none" ∨ name = "_data_dependent" ∨
    "_flow_dependent/".toList <+: name.toList

/-- Whether a type is a named one with the text of a sentinel. -/
def Disguised (t : DataType) : Prop := ∃ name, t = concrete name ∧ Reserved name

/-- The text of the type that a text denotes is this text. -/
theorem text_ofText (s : String) : (ofText s).text = s := by
  unfold ofText
  split
  · rename_i hany
    exact hany.symm
  split
  · rename_i hnone
    exact hnone.symm
  split
  · rename_i hdata
    exact hdata.symm
  split
  · rename_i tag htag
    apply String.toList_inj.mp
    rw [text, String.toList_append, String.toList_ofList, dropLead?_eq_some.mp htag]
  · rfl

theorem ofText_flowDependent (tag : String) :
    ofText (flowDependentHead ++ tag) = flowDependent tag := by
  have hlead : flowDependentHead.toList <+: (flowDependentHead ++ tag).toList := by
    rw [String.toList_append]
    exact List.prefix_append _ _
  -- None of the other sentinels starts as this text does.
  have hne {s : String} (hs : ¬ flowDependentHead.toList <+: s.toList) : flowDependentHead ++ tag ≠ s :=
    fun heq => hs (heq ▸ hlead)
  have htag : dropLead? flowDependentHead.toList (flowDependentHead ++ tag).toList = some tag.toList :=
    dropLead?_eq_some.mpr String.toList_append
  rw [ofText, if_neg (hne (by decide)), if_neg (hne (by decide)), if_neg (hne (by decide)), htag]
  exact congrArg flowDependent String.ofList_toList

/-- A name that is not reserved stays a name. -/
theorem ofText_of_not_reserved {name : String} (h : ¬ Reserved name) : ofText name = concrete name := by
  obtain ⟨hany, hnone, hdata, hflow⟩ : name ≠ anyText ∧ name ≠ noneText ∧ name ≠ dataDependentText ∧
      ¬ flowDependentHead.toList <+: name.toList := by
    rwa [Reserved, not_or, not_or, not_or] at h
  rw [ofText, if_neg hany, if_neg hnone, if_neg hdata]
  split
  · rename_i tag htag
    exact absurd ⟨tag, (dropLead?_eq_some.mp htag).symm⟩ hflow
  · rfl

/-- A reserved name denotes a sentinel. -/
theorem isConcrete_ofText_of_reserved {name : String} (h : Reserved name) :
    (ofText name).isConcrete = false := by
  rcases h with rfl | rfl | rfl | ⟨tag, htag⟩
  · rfl
  · rfl
  · rfl
  · have hname : name = flowDependentHead ++ String.ofList tag := by
      apply String.toList_inj.mp
      rw [String.toList_append, String.toList_ofList]
      exact htag.symm
    rw [hname, ofText_flowDependent]
    rfl

theorem isConcrete_of_disguised {t : DataType} (h : t.Disguised) :
    t.isConcrete = true ∧ (ofText t.text).isConcrete = false := by
  obtain ⟨name, rfl, hreserved⟩ := h
  exact ⟨rfl, isConcrete_ofText_of_reserved hreserved⟩

theorem ofText_text {t : DataType} (h : ¬ t.Disguised) : ofText t.text = t := by
  cases t with
  | concrete name => exact ofText_of_not_reserved fun hreserved => h ⟨name, rfl, hreserved⟩
  | any | none | dataDependent => rfl
  | flowDependent tag => exact ofText_flowDependent tag

theorem ofText_text_ne {t : DataType} (h : t.Disguised) : ofText t.text ≠ t := by
  obtain ⟨hnamed, hsentinel⟩ := isConcrete_of_disguised h
  intro heq
  rw [heq, hnamed] at hsentinel
  exact nomatch hsentinel

/-- Texts and types. The type that a text denotes has this text, so that different texts denote
different types. A type is denoted by its text just if it is not a named type whose name is one of the
sentinels or starts as a flow-dependent type; the text of such a type denotes a sentinel in its
place. Whatever comes behind the beginning of a flow-dependent type is its tag, also if nothing does. -/
theorem texts_of_types :
    (∀ s, (ofText s).text = s) ∧ Function.Injective ofText ∧
      (∀ t : DataType, ofText t.text = t ↔ ¬ t.Disguised) ∧
      (∀ t : DataType, t.Disguised ↔ ofText t.text ≠ t ∧ (ofText t.text).isConcrete = false) ∧
      (∀ tag, ofText ("_flow_dependent/" ++ tag) = flowDependent tag) := by
  refine ⟨text_ofText, Function.LeftInverse.injective text_ofText, fun t => ?_, fun t => ?_,
    ofText_flowDependent⟩
  · exact ⟨fun htext h => ofText_text_ne h htext, ofText_text⟩
  · constructor
    · exact fun h => ⟨ofText_text_ne h, (isConcrete_of_disguised h).2⟩
    · exact fun h => by_contra fun hplain => h.1 (ofText_text hplain)

end Dataflow.DataType
