import Mathlib.Data.List.Find
import Mathlib.Data.List.Nodup
import Dataflow.Config.Basic

/-!
# Texts stored one after the other

Of several texts that are stored under one key the last one counts. If no key comes twice, all of
them are there in the end.
-/

namespace Dataflow.Config

theorem mem_toList {config : Config} {key text : String} :
    (key, text) ∈ config.toList ↔ config.get? key = some text :=
  Std.ExtTreeMap.mem_toList_iff_getElem?_eq_some

theorem pairwise_toList (c : Config) : c.toList.Pairwise fun one other => one.1 < other.1 := by
  refine c.values.ordered_keys_toList.imp fun h => ?_
  exact compareOfLessAndEq_eq_lt.mp h

theorem nodup_keys (c : Config) : (c.toList.map Prod.fst).Nodup := by
  refine List.pairwise_map.mpr (c.pairwise_toList.imp fun {one other} hlt heq => ?_)
  exact String.lt_irrefl other.1 (heq ▸ hlt)

theorem nodup_toList (c : Config) : c.toList.Nodup := .of_map Prod.fst c.nodup_keys

/-- Of some items, the last one with a key. -/
def stored? {α : Type} (keyOf : α → String) (items : List α) (key : String) : Option α :=
  items.reverse.find? fun item => keyOf item = key

theorem of_stored? {α : Type} {keyOf : α → String} {items : List α} {key : String} {item : α}
    (h : stored? keyOf items key = some item) : item ∈ items ∧ keyOf item = key := by
  have hkey := List.find?_some h
  exact ⟨List.mem_reverse.mp (List.mem_of_find?_eq_some h), of_decide_eq_true hkey⟩

/-- The item stored under a key has the key, and no later one has. -/
theorem stored?_eq_some_split {α : Type} {keyOf : α → String} {items : List α} {key : String}
    {item : α} : stored? keyOf items key = some item ↔
      ∃ before after, items = before ++ item :: after ∧ keyOf item = key ∧
        ∀ later ∈ after, keyOf later ≠ key := by
  rw [stored?, List.find?_eq_some_iff_append]
  constructor
  · rintro ⟨hkey, after, before, hitems, hafter⟩
    refine ⟨before.reverse, after.reverse, ?_, of_decide_eq_true hkey, fun later hlater => ?_⟩
    · rw [List.reverse_eq_iff.mp hitems, List.reverse_append, List.reverse_cons, List.append_assoc,
        List.singleton_append]
    · simpa using hafter later (List.mem_reverse.mp hlater)
  · rintro ⟨before, after, rfl, hkey, hafter⟩
    refine ⟨decide_eq_true hkey, after.reverse, before.reverse, ?_, fun later hlater => ?_⟩
    · rw [List.reverse_append, List.reverse_cons, List.append_assoc, List.singleton_append]
    · simpa using hafter later (List.mem_reverse.mp hlater)

theorem stored?_eq_none_iff {α : Type} {keyOf : α → String} {items : List α} {key : String} :
    stored? keyOf items key = none ↔ ∀ item ∈ items, keyOf item ≠ key := by
  rw [stored?, List.find?_eq_none]
  simp only [List.mem_reverse, decide_eq_true_eq]

theorem stored?_append {α : Type} (keyOf : α → String) (items later : List α) (key : String) :
    stored? keyOf (items ++ later) key =
      (stored? keyOf later key).or (stored? keyOf items key) := by
  rw [stored?, List.reverse_append, List.find?_append, stored?, stored?]

theorem stored?_map {α β : Type} (keyOf : β → String) (f : α → β) (items : List α) (key : String) :
    stored? keyOf (items.map f) key = (stored? (fun item => keyOf (f item)) items key).map f := by
  rw [stored?, ← List.map_reverse, List.find?_map]
  rfl

theorem stored?_congr {α : Type} {keyOf keyOf' : α → String} {items : List α} {key key' : String}
    (h : ∀ item ∈ items, keyOf item = key ↔ keyOf' item = key') :
    stored? keyOf items key = stored? keyOf' items key' := by
  refine List.find?_congr fun item hitem => ?_
  exact decide_eq_decide.mpr (h item (List.mem_reverse.mp hitem))

/-- When no two items have one key, an item is found under its key. -/
theorem stored?_eq_some_iff {α : Type} {keyOf : α → String} {items : List α}
    (nodup : (items.map keyOf).Nodup) {key : String} {item : α} :
    stored? keyOf items key = some item ↔ item ∈ items ∧ keyOf item = key := by
  refine ⟨of_stored?, ?_⟩
  rintro ⟨hitem, rfl⟩
  -- Something is found, and there is nothing else with the key of the item.
  obtain ⟨found, hfind⟩ : ∃ found, stored? keyOf items (keyOf item) = some found := by
    refine Option.isSome_iff_exists.mp (List.find?_isSome.mpr ?_)
    exact ⟨item, List.mem_reverse.mpr hitem, decide_eq_true rfl⟩
  obtain ⟨hfound, hkey⟩ := of_stored? hfind
  rw [hfind, List.inj_on_of_nodup_map nodup hfound hitem hkey]

theorem get?_foldl_set {α : Type} (keyOf textOf : α → String) (items : List α) (c : Config)
    (key : String) :
    (items.foldl (fun c item => c.set (keyOf item) (textOf item)) c).get? key =
      ((stored? keyOf items key).map textOf).or (c.get? key) := by
  induction items generalizing c with
  | nil => rfl
  | cons item rest ih =>
    rw [List.foldl_cons, ih, stored?, stored?, List.reverse_cons, List.find?_append, get?_set]
    cases rest.reverse.find? fun item => keyOf item = key with
    | some later => rfl
    | none =>
      by_cases hkey : keyOf item = key
      · simp [hkey]
      · simp [hkey]

/-- Of the entries of a configuration, the one under a key holds the text of the key. -/
theorem stored?_toList (c : Config) (key : String) :
    (stored? Prod.fst c.toList key).map Prod.snd = c.get? key := by
  apply Option.ext
  intro text
  simp only [Option.map_eq_some_iff, stored?_eq_some_iff c.nodup_keys]
  rw [← mem_toList]
  constructor
  · rintro ⟨⟨key, text⟩, ⟨hmem, rfl⟩, rfl⟩
    exact hmem
  · intro hmem
    exact ⟨(key, text), ⟨hmem, rfl⟩, rfl⟩

/-- When no two items have one key, each of them is stored, and nothing else is. -/
theorem toList_foldl_set {α : Type} {keyOf : α → String} (textOf : α → String) {items : List α}
    (nodup : (items.map keyOf).Nodup) :
    (items.foldl (fun c item => c.set (keyOf item) (textOf item)) empty).toList.Perm
      (items.map fun item => (keyOf item, textOf item)) := by
  have hkeys : (items.map fun item => (keyOf item, textOf item)).Nodup :=
    .of_map Prod.fst (by rwa [List.map_map])
  refine (List.perm_ext_iff_of_nodup (nodup_toList _) hkeys).mpr ?_
  rintro ⟨key, text⟩
  rw [mem_toList, get?_foldl_set, get?_empty, Option.or_none, Option.map_eq_some_iff, List.mem_map]
  refine exists_congr fun item => ?_
  rw [stored?_eq_some_iff nodup, Prod.mk.injEq, and_assoc]

end Dataflow.Config
