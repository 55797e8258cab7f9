import Dataflow.Config.Document
import Dataflow.Proofs.Config.Stored
import Dataflow.Proofs.Toml.Ordered

/-!
# Flat keys of documents

A document is a tree of tables, and a configuration is flat. The key of a scalar of the document is
its path, with a separator between each two keys of it. Keys without separators keep the paths
apart, but for one thing: a block with the empty name is taken for the outermost one, so that empty
keys in front of a path are lost.
-/

namespace Dataflow

namespace Toml

mutual

/-- Where the paths of a value end, in the order in which they are visited: at its scalars, and at
its arrays, for which there is no scalar. -/
def Value.tips : Value → List (List String × Option Leaf)
  | .leaf leaf => [([], some leaf)]
  | .array _ => [([], none)]
  | .table entries => tipsOf entries

/-- Where the paths of a table end. -/
def tipsOf : Table → List (List String × Option Leaf)
  | [] => []
  | (key, value) :: rest => (value.tips.map fun tip => (key :: tip.1, tip.2)) ++ tipsOf rest

end

/-- The scalars of a table, each with its path. -/
def leavesOf (table : Table) : List (List String × Leaf) :=
  (tipsOf table).filterMap fun tip => tip.2.map fun leaf => (tip.1, leaf)

/-- A path without the empty keys in front of it. -/
def stem (path : List String) : List String := path.dropWhile (· = "")

theorem mem_tipsOf {table : Table} {tip : List String × Option Leaf} :
    tip ∈ tipsOf table ↔ ∃ key value path,
      (key, value) ∈ table ∧ (path, tip.2) ∈ value.tips ∧ tip.1 = key :: path := by
  induction table with
  | nil => simp [tipsOf]
  | cons first rest ih =>
    obtain ⟨key, value⟩ := first
    rw [tipsOf, List.mem_append, ih, List.mem_map]
    constructor
    · rintro (⟨⟨path, leaf?⟩, hpath, rfl⟩ | ⟨key', value', path, hentry, hpath, htip⟩)
      · exact ⟨key, value, path, List.mem_cons_self, hpath, rfl⟩
      · exact ⟨key', value', path, List.mem_cons_of_mem _ hentry, hpath, htip⟩
    · rintro ⟨key', value', path, hentry, hpath, htip⟩
      rcases List.mem_cons.mp hentry with heq | hentry
      · obtain ⟨rfl, rfl⟩ := Prod.mk.inj heq
        exact .inl ⟨(path, tip.2), hpath, Prod.ext htip.symm rfl⟩
      · exact .inr ⟨key', value', path, hentry, hpath, htip⟩

/-- Only into a table do paths go on. -/
theorem Value.path_of_mem_tips {value : Value} {tip : List String × Option Leaf}
    (h : tip ∈ value.tips) : tip.1 = [] ∨ ∃ entries, value = .table entries := by
  cases value with
  | leaf leaf => exact .inl (congrArg Prod.fst (List.mem_singleton.mp h))
  | array items => exact .inl (congrArg Prod.fst (List.mem_singleton.mp h))
  | table entries => exact .inr ⟨entries, rfl⟩

mutual

theorem Value.Ordered.ascending_tips {value : Value} (h : value.Ordered) :
    value.tips.Pairwise fun one other => one.1 < other.1 := by
  match value with
  | .leaf leaf => exact List.pairwise_singleton _ _
  | .array items => exact List.pairwise_singleton _ _
  | .table entries =>
    cases h with
    | table keys fit => exact ascending_tipsOf ⟨keys, fit⟩

/-- Where the entries of tables are in the order of their keys, paths are visited in lexicographic
order. -/
theorem ascending_tipsOf {table : Table} (h : Entries (· < ·) Value.Ordered table) :
    (tipsOf table).Pairwise fun one other => one.1 < other.1 := by
  match table with
  | [] => exact .nil
  | (key, value) :: rest =>
    obtain ⟨hkey, hkeys⟩ := List.pairwise_cons.mp h.keys
    obtain ⟨hvalue, hfit⟩ := List.forall_mem_cons.mp h.fit
    refine List.pairwise_append.mpr ⟨?_, ascending_tipsOf ⟨hkeys, hfit⟩, ?_⟩
    · refine List.pairwise_map.mpr (hvalue.ascending_tips.imp fun hlt => ?_)
      exact List.cons_lt_cons_iff.mpr (.inr ⟨rfl, hlt⟩)
    · -- Paths into the first entry begin with a lesser key than those into later ones.
      rintro tip htip ⟨path', leaf?⟩ htip'
      obtain ⟨⟨path, _⟩, -, rfl⟩ := List.mem_map.mp htip
      obtain ⟨key', value', rest', hentry, -, rfl⟩ := mem_tipsOf.mp htip'
      exact List.cons_lt_cons_iff.mpr (.inl (hkey (key', value') hentry))

end

theorem mem_leavesOf {table : Table} {path : List String} {leaf : Leaf} :
    (path, leaf) ∈ leavesOf table ↔ (path, some leaf) ∈ tipsOf table := by
  simp [leavesOf]

theorem nodup_leavesOf {table : Table} (h : (Value.table table).Ordered) :
    ((leavesOf table).map Prod.fst).Nodup := by
  have htips : (tipsOf table).Pairwise fun tip tip' => tip.1 ≠ tip'.1 := by
    refine h.ascending_tips.imp fun {tip tip'} hlt heq => ?_
    exact List.lt_irrefl tip'.1 (heq ▸ hlt)
  refine List.pairwise_map.mpr (htips.filterMap _ fun tip tip' hne leaf hleaf leaf' hleaf' => ?_)
  obtain ⟨_, -, rfl⟩ := Option.map_eq_some_iff.mp hleaf
  obtain ⟨_, -, rfl⟩ := Option.map_eq_some_iff.mp hleaf'
  exact hne

@[simp] theorem stem_nil : stem [] = [] := rfl

@[simp] theorem stem_cons_empty (rest : List String) : stem ("" :: rest) = stem rest := rfl

@[simp] theorem stem_cons_of_ne {key : String} (h : key ≠ "") (rest : List String) :
    stem (key :: rest) = key :: rest :=
  List.dropWhile_cons_of_neg (by simpa using h)

theorem stem_eq_nil_or (path : List String) :
    stem path = [] ∨ ∃ key rest, key ≠ "" ∧ stem path = key :: rest := by
  induction path with
  | nil => exact .inl rfl
  | cons key rest ih =>
    by_cases hkey : key = ""
    · subst hkey
      exact ih
    · exact .inr ⟨key, rest, hkey, stem_cons_of_ne hkey rest⟩

theorem stem_subset (path : List String) : stem path ⊆ path := (List.dropWhile_sublist _).subset

theorem named_of_keys {table : Table} (h : "" ∉ table.map Prod.fst) (entries : Table) :
    ("", .table entries) ∉ table :=
  fun hentry => h (List.mem_map_of_mem hentry)

/-- Unless an outermost table has the empty name, a path can be told from its stem. -/
theorem path_of_stem {table : Table} (named : ∀ entries, ("", .table entries) ∉ table)
    {tip : List String × Option Leaf} (htip : tip ∈ tipsOf table) :
    (if stem tip.1 = [] then [""] else stem tip.1) = tip.1 := by
  obtain ⟨key, value, path, hentry, hpath, hkey⟩ := mem_tipsOf.mp htip
  rw [hkey]
  by_cases hempty : key = ""
  · subst hempty
    rcases Value.path_of_mem_tips hpath with hnil | ⟨entries, rfl⟩
    · obtain rfl : path = [] := hnil
      rfl
    · exact absurd hentry (named entries)
  · simp [hempty]

end Toml

namespace Config

open Toml (tipsOf leavesOf stem)

/-- The key under which a scalar is stored, within a block. -/
def keyWithin (block : String) (path : List String) : String := path.foldl joinKey block

/-- Store what is at the end of a path. -/
def storeTip (block : String) (c : Config) (tip : List String × Option Toml.Leaf) :
    Except ConfigError Config :=
  match tip.2 with
  | some leaf => .ok (c.set (keyWithin block tip.1) (leafText leaf))
  | none => .error (arrayFault (keyWithin block tip.1))

mutual

theorem storeValue_eq (block : String) (value : Toml.Value) (c : Config) :
    storeValue block value c = value.tips.foldlM (storeTip block) c := by
  match value with
  | .leaf leaf => rfl
  | .array items => rfl
  | .table entries => exact storeEntries_eq block entries c

/-- Storing a table is storing what is at the end of its paths, one after the other. -/
theorem storeEntries_eq (block : String) (entries : Toml.Table) (c : Config) :
    storeEntries block entries c = (tipsOf entries).foldlM (storeTip block) c := by
  match entries with
  | [] => rfl
  | (key, value) :: rest =>
    -- Within its table, the paths of the first value go through its key.
    have hfirst : storeValue (joinKey block key) value c =
        (value.tips.map fun tip => (key :: tip.1, tip.2)).foldlM (storeTip block) c := by
      rw [storeValue_eq, List.foldlM_map]
      rfl
    rw [storeEntries, tipsOf, List.foldlM_append, ← hfirst]
    cases storeValue (joinKey block key) value c with
    | error e => rfl
    | ok c => exact storeEntries_eq block rest c

end

/-! ## Keys of paths -/

/-- The key of a path: what is left of it behind its empty keys, joined. -/
def pathKey (path : List String) : String := separator.intercalate (stem path)

theorem keyWithin_of_ne {block : String} (h : block ≠ "") (path : List String) :
    keyWithin block path = separator.intercalate (block :: path) := by
  induction path generalizing block with
  | nil => exact String.intercalate_singleton.symm
  | cons key rest ih =>
    have hjoin : joinKey block key = block ++ separator ++ key := if_neg h
    have hne : block ++ separator ++ key ≠ "" := by simp [h]
    calc keyWithin block (key :: rest)
      _ = keyWithin (block ++ separator ++ key) rest := by rw [← hjoin]; rfl
      _ = separator.intercalate ((block ++ separator ++ key) :: rest) := ih hne
      _ = separator.intercalate (block :: key :: rest) := by
        rw [String.intercalate_cons_append, String.intercalate_cons_cons]

/-- In the outermost block, empty keys in front of a path leave no trace. -/
theorem keyWithin_empty (path : List String) : keyWithin "" path = pathKey path := by
  induction path with
  | nil => rfl
  | cons key rest ih =>
    by_cases hkey : key = ""
    · subst hkey
      exact ih
    · rw [pathKey, Toml.stem_cons_of_ne hkey]
      exact keyWithin_of_ne hkey rest

theorem splitOn_intercalate {keys : List String} (hne : keys ≠ [])
    (h : ∀ key ∈ keys, ':' ∉ key.toList) :
    (separator.intercalate keys).toList.splitOn ':' = keys.map String.toList := by
  rw [String.toList_intercalate]
  refine List.splitOn_intercalate ':' ?_ (mt List.map_eq_nil_iff.mp hne)
  exact List.forall_mem_map.mpr h

/-- Keys that are joined can be told apart again, but for one empty key and none. -/
theorem intercalate_inj {keys keys' : List String} (hne : keys ≠ []) (hne' : keys' ≠ [])
    (h : ∀ key ∈ keys, ':' ∉ key.toList) (h' : ∀ key ∈ keys', ':' ∉ key.toList)
    (heq : separator.intercalate keys = separator.intercalate keys') : keys = keys' := by
  have hsplit := splitOn_intercalate hne h
  rw [heq, splitOn_intercalate hne' h'] at hsplit
  exact ((List.map_injective_iff.mpr fun _ _ => String.toList_inj.mp) hsplit).symm

theorem intercalate_stem (path : List String) :
    separator.intercalate (if stem path = [] then [""] else stem path) = pathKey path := by
  rw [pathKey]
  split
  · rename_i hnil
    rw [hnil, String.intercalate_singleton, String.intercalate_nil]
  · rfl

/-- Unless an outermost table has the empty name, the key of a path is the whole path, joined. -/
theorem pathKey_eq_intercalate {table : Toml.Table} (named : ∀ entries, ("", .table entries) ∉ table)
    {tip : List String × Option Toml.Leaf} (htip : tip ∈ tipsOf table) :
    pathKey tip.1 = separator.intercalate tip.1 := by
  rw [← intercalate_stem, Toml.path_of_stem named htip]

theorem pathKey_ne_empty {path : List String} {key : String} {rest : List String}
    (hkey : key ≠ "") (hstem : stem path = key :: rest) : pathKey path ≠ "" := by
  rw [pathKey, hstem]
  cases rest with
  | nil => rwa [String.intercalate_singleton]
  | cons next rest => simp [String.intercalate_cons_cons, hkey]

/-- Two paths have one key just if they differ in nothing but empty keys in front. -/
theorem pathKey_eq_iff {path path' : List String} (h : ∀ key ∈ path, ':' ∉ key.toList)
    (h' : ∀ key ∈ path', ':' ∉ key.toList) :
    pathKey path = pathKey path' ↔ stem path = stem path' := by
  refine ⟨fun heq => ?_, fun heq => congrArg separator.intercalate heq⟩
  -- The key is empty just if nothing is left of the path.
  rcases Toml.stem_eq_nil_or path with hnil | ⟨key, rest, hkey, hstem⟩
  · rcases Toml.stem_eq_nil_or path' with hnil' | ⟨key', rest', hkey', hstem'⟩
    · rw [hnil, hnil']
    · have hempty : pathKey path = "" := by rw [pathKey, hnil, String.intercalate_nil]
      exact absurd (heq ▸ hempty) (pathKey_ne_empty hkey' hstem')
  · rcases Toml.stem_eq_nil_or path' with hnil' | ⟨key', rest', hkey', hstem'⟩
    · have hempty : pathKey path' = "" := by rw [pathKey, hnil', String.intercalate_nil]
      exact absurd (heq ▸ hempty) (pathKey_ne_empty hkey hstem)
    · exact intercalate_inj (by simp [hstem]) (by simp [hstem'])
        (fun key hmem => h key (Toml.stem_subset path hmem))
        (fun key hmem => h' key (Toml.stem_subset path' hmem)) heq

/-! ## Configurations of documents -/

/-- Without arrays, all scalars are stored, one after the other. -/
theorem foldlM_storeTip {tips : List (List String × Option Toml.Leaf)}
    (noArray : ∀ tip ∈ tips, tip.2 ≠ none) (c : Config) :
    tips.foldlM (storeTip "") c =
      .ok ((tips.filterMap fun tip => tip.2.map fun leaf => (tip.1, leaf)).foldl
        (fun c leaf => c.set (pathKey leaf.1) (leafText leaf.2)) c) := by
  induction tips generalizing c with
  | nil => rfl
  | cons tip rest ih =>
    obtain ⟨hleaf, hrest⟩ := List.forall_mem_cons.mp noArray
    obtain ⟨path, leaf?⟩ := tip
    obtain ⟨leaf, rfl⟩ := Option.ne_none_iff_exists'.mp hleaf
    have hstore : storeTip "" c (path, some leaf) =
        .ok (c.set (pathKey path) (leafText leaf)) := by
      rw [← keyWithin_empty]
      rfl
    rw [List.foldlM_cons, hstore]
    exact ih hrest _

theorem ofTable_eq {table : Toml.Table} (noArray : ∀ tip ∈ tipsOf table, tip.2 ≠ none) :
    ofTable table = .ok ((leavesOf table).foldl
      (fun c leaf => c.set (pathKey leaf.1) (leafText leaf.2)) empty) := by
  rw [ofTable, storeEntries_eq, foldlM_storeTip noArray]
  rfl

/-- The text that the scalars of a table leave under a key. -/
def textAt (table : Toml.Table) (key : String) : Option String :=
  (stored? (fun leaf => pathKey leaf.1) (leavesOf table) key).map fun leaf => leafText leaf.2

theorem get?_ofTable {table : Toml.Table} (noArray : ∀ tip ∈ tipsOf table, tip.2 ≠ none)
    {c : Config} (hc : ofTable table = .ok c) (key : String) : c.get? key = textAt table key := by
  rw [ofTable_eq noArray] at hc
  rw [← Except.ok.inj hc, get?_foldl_set, get?_empty, Option.or_none]
  rfl

theorem ofToml_of_parsed {source : String} {table : Toml.Table}
    (parsed : Toml.parse? source = some table) : ofToml source = ofTable table := by
  rw [ofToml, parsed]

theorem ofToml_eq {source : String} {table : Toml.Table} (parsed : Toml.parse? source = some table)
    (noArray : ∀ tip ∈ tipsOf table, tip.2 ≠ none) :
    ofToml source = .ok ((leavesOf table).foldl
      (fun c leaf => c.set (pathKey leaf.1) (leafText leaf.2)) empty) := by
  rw [ofToml_of_parsed parsed, ofTable_eq noArray]

/-- A table without arrays is stored scalar by scalar, each under the key of its path, and of scalars
with one key the last one counts. When no key has a separator in it, two scalars have one key just if
their paths differ in nothing but empty keys in front. So if no outermost table has the empty name,
each scalar has a key of its own, its path joined by separators, and the configuration holds the
scalars and nothing else. -/
theorem ofTable_leaves {table : Toml.Table} (ordered : (Toml.Value.table table).Ordered)
    (noArray : ∀ tip ∈ tipsOf table, tip.2 ≠ none)
    (noSeparator : ∀ tip ∈ tipsOf table, ∀ key ∈ tip.1, ':' ∉ key.toList) :
    ((leavesOf table).map Prod.fst).Nodup ∧
      (∀ one ∈ leavesOf table, ∀ other ∈ leavesOf table,
        pathKey one.1 = pathKey other.1 ↔ stem one.1 = stem other.1) ∧
      ∃ c, ofTable table = .ok c ∧
        (∀ key, c.get? key =
          (stored? (fun leaf => pathKey leaf.1) (leavesOf table) key).map
            fun leaf => leafText leaf.2) ∧
        ((∀ entries, ("", .table entries) ∉ table) →
          ((leavesOf table).map fun leaf => separator.intercalate leaf.1).Nodup ∧
          c.toList.Perm
            ((leavesOf table).map fun leaf => (separator.intercalate leaf.1, leafText leaf.2))) := by
  have hnodup := Toml.nodup_leavesOf ordered
  have hplain {leaf : List String × Toml.Leaf} (hleaf : leaf ∈ leavesOf table) :
      ∀ key ∈ leaf.1, ':' ∉ key.toList :=
    noSeparator (leaf.1, some leaf.2) (Toml.mem_leavesOf.mp hleaf)
  refine ⟨hnodup, fun one hone other hother => pathKey_eq_iff (hplain hone) (hplain hother), _,
    ofTable_eq noArray, fun key => ?_, fun named => ?_⟩
  · rw [get?_foldl_set, get?_empty, Option.or_none]
  · -- A path that can be told from its stem can be told from its key.
    have hwhole {leaf : List String × Toml.Leaf} (hleaf : leaf ∈ leavesOf table) :=
      Toml.path_of_stem named (Toml.mem_leavesOf.mp hleaf)
    have hkey {leaf : List String × Toml.Leaf} (hleaf : leaf ∈ leavesOf table) :
        pathKey leaf.1 = separator.intercalate leaf.1 :=
      (intercalate_stem leaf.1).symm.trans (congrArg separator.intercalate (hwhole hleaf))
    have hpaths : ((leavesOf table).map fun leaf => pathKey leaf.1).Nodup := by
      refine (List.Nodup.of_map Prod.fst hnodup).map_on fun one hone other hother heq => ?_
      have hstems := (pathKey_eq_iff (hplain hone) (hplain hother)).mp heq
      refine List.inj_on_of_nodup_map hnodup hone hother ?_
      rw [← hwhole hone, ← hwhole hother, hstems]
    have hall := toList_foldl_set (fun leaf => leafText leaf.2) hpaths
    rw [List.map_congr_left fun leaf hleaf => hkey hleaf] at hpaths
    rw [List.map_congr_left fun leaf hleaf => by rw [hkey hleaf]] at hall
    exact ⟨hpaths, hall⟩

/-- The table of a document is in the order of its keys, so all this holds of documents. -/
theorem ofToml_leaves {source : String} {table : Toml.Table}
    (parsed : Toml.parse? source = some table) (noArray : ∀ tip ∈ tipsOf table, tip.2 ≠ none)
    (noSeparator : ∀ tip ∈ tipsOf table, ∀ key ∈ tip.1, ':' ∉ key.toList) :
    ((leavesOf table).map Prod.fst).Nodup ∧
      (∀ one ∈ leavesOf table, ∀ other ∈ leavesOf table,
        pathKey one.1 = pathKey other.1 ↔ stem one.1 = stem other.1) ∧
      ∃ c, ofToml source = .ok c ∧
        (∀ key, c.get? key =
          (stored? (fun leaf => pathKey leaf.1) (leavesOf table) key).map
            fun leaf => leafText leaf.2) ∧
        ((∀ entries, ("", .table entries) ∉ table) →
          ((leavesOf table).map fun leaf => separator.intercalate leaf.1).Nodup ∧
          c.toList.Perm
            ((leavesOf table).map fun leaf => (separator.intercalate leaf.1, leafText leaf.2))) := by
  rw [ofToml_of_parsed parsed]
  exact ofTable_leaves (Toml.parse_ordered parsed) noArray noSeparator

/-- A document with a table in a table. -/
def nested : String := "port = 8080\n[limits.\"\"]\nrate = 2\nstrict = true\n"

theorem ofToml_leaves_nested :
    ∃ c, ofToml nested = .ok c ∧
      c.toList.Perm [("limits::rate", "2"), ("limits::strict", "true"), ("port", "8080")] := by
  have hparse : (Toml.parse? nested).map (fun table => (tipsOf table, table.map Prod.fst)) =
      some ([(["limits", "", "rate"], some (.integer 2)),
        (["limits", "", "strict"], some (.boolean true)), (["port"], some (.integer 8080))],
        ["limits", "port"]) := by
    decide +kernel
  obtain ⟨table, parsed, heq⟩ := Option.map_eq_some_iff.mp hparse
  obtain ⟨htips, hkeys⟩ := Prod.mk.inj heq
  obtain ⟨-, -, c, hc, -, hnamed⟩ :=
    ofToml_leaves parsed (by rw [htips]; decide) (by rw [htips]; decide)
  refine ⟨c, hc, ?_⟩
  have hall := (hnamed fun entries hentry => ?_).2
  · rwa [leavesOf, htips] at hall
  · have hkey : "" ∈ table.map Prod.fst := List.mem_map_of_mem hentry
    rw [hkeys] at hkey
    exact absurd hkey (by decide)

/-- A document with a nameless outermost table. -/
def nameless : String := "a = 1\n[\"\"]\na = 2\n"

/-- The scalar in the nameless table is lost: its key is that of the one beside the table. -/
theorem nameless_lost :
    (Toml.parse? nameless).map leavesOf = some [(["", "a"], .integer 2), (["a"], .integer 1)] ∧
      (ofToml nameless).toOption.map toList = some [("a", "1")] := by
  decide +kernel

end Config

end Dataflow
