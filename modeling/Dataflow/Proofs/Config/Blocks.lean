import Dataflow.Proofs.Config.Stored

/-!
# Blocks and overlays

A configuration is known by the text that it gives for each key. A block is asked for a key by
putting its name and the separator in front of the key, and of a configuration and its overlay the
overlay is asked first. The laws of blocks and overlays follow from these two equations.
-/

namespace Dataflow.Config

theorem has_eq (c : Config) (key : String) : c.has key = (c.get? key).isSome :=
  Std.ExtTreeMap.isSome_getElem?_eq_contains.symm

/-- A key is in a block just if it starts with the name of the block and the separator. -/
theorem keyInBlock?_eq_some {block key rest : String} :
    keyInBlock? block key = some rest ↔ key = block ++ separator ++ rest := by
  rw [keyInBlock?, Option.map_eq_some_iff]
  constructor
  · rintro ⟨cs, hcs, rfl⟩
    apply String.toList_inj.mp
    simp only [DataType.dropLead?_eq_some.mp hcs, String.toList_append, String.toList_ofList]
  · rintro rfl
    refine ⟨rest.toList, DataType.dropLead?_eq_some.mpr ?_, String.ofList_toList⟩
    rw [String.toList_append]

/-- What is left of the keys of a block is different for each of them. -/
theorem nodup_entriesInBlock (c : Config) (block : String) :
    ((c.toList.filterMap fun pair =>
      (keyInBlock? block pair.1).map fun key => (key, pair.2)).map Prod.fst).Nodup := by
  refine List.pairwise_map.mpr (c.pairwise_toList.filterMap _ ?_)
  rintro one other hlt one' hone other' hother heq
  obtain ⟨key, hkey, rfl⟩ := Option.map_eq_some_iff.mp hone
  obtain ⟨key', hkey', rfl⟩ := Option.map_eq_some_iff.mp hother
  -- What is left of two keys is the same only if the keys are.
  obtain rfl : key = key' := heq
  rw [keyInBlock?_eq_some.mp hkey, keyInBlock?_eq_some.mp hkey'] at hlt
  exact String.lt_irrefl _ hlt

/-- A block is asked for a key by the whole key. -/
theorem get?_subblock (c : Config) (block key : String) :
    (c.subblock block).get? key = c.get? (block ++ separator ++ key) := by
  apply Option.ext
  intro text
  rw [subblock, ofList, get?_foldl_set Prod.fst Prod.snd, get?_empty, Option.or_none,
    Option.map_eq_some_iff]
  simp only [stored?_eq_some_iff (c.nodup_entriesInBlock block), List.mem_filterMap,
    Option.map_eq_some_iff, keyInBlock?_eq_some]
  rw [← mem_toList]
  constructor
  · rintro ⟨_, ⟨⟨⟨whole, text⟩, hmem, key, rfl, rfl⟩, rfl⟩, rfl⟩
    exact hmem
  · intro hmem
    exact ⟨(key, text), ⟨⟨_, hmem, key, rfl, rfl⟩, rfl⟩, rfl⟩

/-- An overlay is asked first. -/
theorem get?_merge (c upper : Config) (key : String) :
    (c.merge upper).get? key = (upper.get? key).or (c.get? key) := by
  rw [merge, get?_foldl_set Prod.fst Prod.snd, stored?_toList]

theorem subblock_append (c : Config) (block inner : String) :
    c.subblock (block ++ separator ++ inner) = (c.subblock block).subblock inner := by
  refine ext_get? fun key => ?_
  simp only [get?_subblock, String.append_assoc]

theorem subblock_merge (c upper : Config) (block : String) :
    (c.merge upper).subblock block = (c.subblock block).merge (upper.subblock block) := by
  refine ext_get? fun key => ?_
  simp only [get?_subblock, get?_merge]

theorem merge_assoc (a b c : Config) : (a.merge b).merge c = a.merge (b.merge c) := by
  refine ext_get? fun key => ?_
  simp only [get?_merge, Option.or_assoc]

theorem merge_self (c : Config) : c.merge c = c := by
  refine ext_get? fun key => ?_
  rw [get?_merge, Option.or_self]

theorem merge_empty (c : Config) : c.merge empty = c := by
  refine ext_get? fun key => ?_
  rw [get?_merge, get?_empty, Option.none_or]

theorem empty_merge (c : Config) : empty.merge c = c := by
  refine ext_get? fun key => ?_
  rw [get?_merge, get?_empty, Option.or_none]

/-- Blocks and overlays over all configurations and names, empty names and names with separators
among them. A block holds just the keys that start with its name, each with its text; a block of a
block is one block whose name joins theirs; taking out a block can be done before an overlay is put
on or after. Overlays are associative and idempotent, the empty configuration is their unit, and
where the overlay has a key its text counts. -/
theorem blocks_and_overlays (a b c : Config) (x y key : String) :
    (∀ text, a.get? (x ++ separator ++ key) = some text ↔
        (a.subblock x).get? key = some text) ∧
      a.subblock (x ++ separator ++ y) = (a.subblock x).subblock y ∧
      (a.merge b).subblock x = (a.subblock x).merge (b.subblock x) ∧
      (a.merge b).merge c = a.merge (b.merge c) ∧
      a.merge a = a ∧
      a.merge empty = a ∧
      empty.merge a = a ∧
      (a.merge b).get? key = if b.has key then b.get? key else a.get? key := by
  refine ⟨fun text => ?_, a.subblock_append x y, a.subblock_merge b x, a.merge_assoc b c,
    a.merge_self, a.merge_empty, a.empty_merge, ?_⟩
  · rw [get?_subblock]
  · rw [get?_merge, has_eq]
    cases b.get? key with
    | none => rfl
    | some text => rfl

end Dataflow.Config
