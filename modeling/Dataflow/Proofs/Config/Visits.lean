import Dataflow.Proofs.Config.Flattening

/-!
# Documents as they are visited

What becomes of a document depends on the order in which its paths are visited. The first array
ends the visit, whatever comes before or after it. Without arrays each key holds the text of the
last scalar whose path joins to it, since every later one is stored over the earlier ones.
-/

namespace Dataflow.Config

open Toml (tipsOf leavesOf)

theorem exists_first_array {tips : List (List String × Option Toml.Leaf)}
    (h : ¬ ∀ tip ∈ tips, tip.2 ≠ none) :
    ∃ before path after, tips = before ++ (path, none) :: after ∧ ∀ tip ∈ before, tip.2 ≠ none := by
  induction tips with
  | nil => exact absurd (List.forall_mem_nil _) h
  | cons tip rest ih =>
    obtain ⟨path, leaf?⟩ := tip
    cases leaf? with
    | none => exact ⟨[], path, rest, rfl, List.forall_mem_nil _⟩
    | some leaf =>
      have hrest : ¬ ∀ tip ∈ rest, tip.2 ≠ none :=
        fun hrest => h (List.forall_mem_cons.mpr ⟨nofun, hrest⟩)
      obtain ⟨before, path', after, rfl, hbefore⟩ := ih hrest
      exact ⟨(path, some leaf) :: before, path', after, rfl,
        List.forall_mem_cons.mpr ⟨nofun, hbefore⟩⟩

/-- Whatever has been stored before it is lost with the first array. -/
theorem ofTable_of_array {table : Toml.Table} {before after : List (List String × Option Toml.Leaf)}
    {path : List String} (split : tipsOf table = before ++ (path, none) :: after)
    (noArray : ∀ tip ∈ before, tip.2 ≠ none) :
    ofTable table = .error (arrayFault (pathKey path)) := by
  rw [ofTable, storeEntries_eq, split, List.foldlM_append, foldlM_storeTip noArray, ← keyWithin_empty]
  rfl

/-- Without arrays, a key holds the text of the last scalar whose path joins to it. -/
theorem get?_ofTable_eq_some {table : Toml.Table} (named : ∀ entries, ("", .table entries) ∉ table)
    (noArray : ∀ tip ∈ tipsOf table, tip.2 ≠ none) {c : Config} (hc : ofTable table = .ok c)
    {key text : String} : c.get? key = some text ↔
      ∃ before path leaf after, leavesOf table = before ++ (path, leaf) :: after ∧
        separator.intercalate path = key ∧ leafText leaf = text ∧
        ∀ later ∈ after, separator.intercalate later.1 ≠ key := by
  have hstored : stored? (fun leaf => pathKey leaf.1) (leavesOf table) key =
      stored? (fun leaf => separator.intercalate leaf.1) (leavesOf table) key := by
    refine stored?_congr fun leaf hleaf => ?_
    rw [pathKey_eq_intercalate named (Toml.mem_leavesOf.mp hleaf)]
  rw [get?_ofTable noArray hc, textAt, hstored, Option.map_eq_some_iff]
  simp only [stored?_eq_some_split]
  constructor
  · rintro ⟨⟨path, leaf⟩, ⟨before, after, split, hkey, hafter⟩, htext⟩
    exact ⟨before, path, leaf, after, split, hkey, htext, hafter⟩
  · rintro ⟨before, path, leaf, after, split, hkey, htext, hafter⟩
    exact ⟨(path, leaf), ⟨before, after, split, hkey, hafter⟩, htext⟩

/-- The visit to a table whose own tables have names. Paths come in lexicographic order: the entries of
each table in the order of their keys, and those of a table within it in its place. The visit fails
just if it comes to an array, and the error names the first one. Otherwise each key holds the text of
the last scalar whose path joins to it, and there are no other keys. -/
theorem ofTable_visits {table : Toml.Table} (ordered : (Toml.Value.table table).Ordered)
    (named : ∀ entries, ("", .table entries) ∉ table) :
    ((tipsOf table).Pairwise fun one other => one.1 < other.1) ∧
      (∀ error, ofTable table = .error error ↔
        ∃ before path after, tipsOf table = before ++ (path, none) :: after ∧
          (∀ tip ∈ before, tip.2 ≠ none) ∧ error = arrayFault (separator.intercalate path)) ∧
      ∀ c, ofTable table = .ok c ↔
        (∀ tip ∈ tipsOf table, tip.2 ≠ none) ∧
          ∀ key text, c.get? key = some text ↔
            ∃ before path leaf after, leavesOf table = before ++ (path, leaf) :: after ∧
              separator.intercalate path = key ∧ leafText leaf = text ∧
              ∀ later ∈ after, separator.intercalate later.1 ≠ key := by
  have hkey {tip : List String × Option Toml.Leaf} (htip : tip ∈ tipsOf table) :=
    pathKey_eq_intercalate named htip
  refine ⟨ordered.ascending_tips, fun error => ⟨fun herror => ?_, ?_⟩,
    fun c => ⟨fun hc => ?_, ?_⟩⟩
  · by_cases noArray : ∀ tip ∈ tipsOf table, tip.2 ≠ none
    · rw [ofTable_eq noArray] at herror
      exact nomatch herror
    · obtain ⟨before, path, after, split, hbefore⟩ := exists_first_array noArray
      rw [ofTable_of_array split hbefore] at herror
      have hpath : (path, none) ∈ tipsOf table :=
        split ▸ List.mem_append_right before List.mem_cons_self
      exact ⟨before, path, after, split, hbefore, hkey hpath ▸ (Except.error.inj herror).symm⟩
  · rintro ⟨before, path, after, split, hbefore, rfl⟩
    have hpath : (path, none) ∈ tipsOf table :=
      split ▸ List.mem_append_right before List.mem_cons_self
    rw [ofTable_of_array split hbefore, ← hkey hpath]
  · by_cases noArray : ∀ tip ∈ tipsOf table, tip.2 ≠ none
    · exact ⟨noArray, fun key text => get?_ofTable_eq_some named noArray hc⟩
    · obtain ⟨before, path, after, split, hbefore⟩ := exists_first_array noArray
      rw [ofTable_of_array split hbefore] at hc
      exact nomatch hc
  · rintro ⟨noArray, holds⟩
    obtain ⟨c', hc'⟩ : ∃ c', ofTable table = .ok c' := ⟨_, ofTable_eq noArray⟩
    rw [hc', ext_get? fun key => Option.ext fun text =>
      (get?_ofTable_eq_some named noArray hc').trans (holds key text).symm]

/-- The table of a document is in the order of its keys, so documents are visited in the same way. -/
theorem ofToml_visits {source : String} {table : Toml.Table}
    (parsed : Toml.parse? source = some table) (named : ∀ entries, ("", .table entries) ∉ table) :
    ((tipsOf table).Pairwise fun one other => one.1 < other.1) ∧
      (∀ error, ofToml source = .error error ↔
        ∃ before path after, tipsOf table = before ++ (path, none) :: after ∧
          (∀ tip ∈ before, tip.2 ≠ none) ∧ error = arrayFault (separator.intercalate path)) ∧
      ∀ c, ofToml source = .ok c ↔
        (∀ tip ∈ tipsOf table, tip.2 ≠ none) ∧
          ∀ key text, c.get? key = some text ↔
            ∃ before path leaf after, leavesOf table = before ++ (path, leaf) :: after ∧
              separator.intercalate path = key ∧ leafText leaf = text ∧
              ∀ later ∈ after, separator.intercalate later.1 ≠ key := by
  rw [ofToml_of_parsed parsed]
  exact ofTable_visits (Toml.parse_ordered parsed) named

/-- A document in which a quoted key is the path of a number. -/
def colliding : String := "\"a:b\" = 2\n[a]\nb = 1\nc = true\n"

/-- A document with two arrays, of which the second one stands in the lesser table. -/
def crowded : String := "[b]\nx = [1]\n[a]\nx = 1\ny = []\nz = 2\n"

theorem ofToml_visits_colliding :
    (∃ c, ofToml colliding = .ok c ∧ c.get? "a:b" = some "2") ∧
      ofToml crowded = .error (arrayFault "a:y") := by
  constructor
  · have hparse : (Toml.parse? colliding).map (fun table => (tipsOf table, table.map Prod.fst)) =
        some ([(["a", "b"], some (.integer 1)), (["a", "c"], some (.boolean true)),
          (["a:b"], some (.integer 2))], ["a", "a:b"]) := by
      decide +kernel
    obtain ⟨table, parsed, heq⟩ := Option.map_eq_some_iff.mp hparse
    obtain ⟨htips, hkeys⟩ := Prod.mk.inj heq
    have named := Toml.named_of_keys (by rw [hkeys]; decide)
    obtain ⟨-, -, hok⟩ := ofToml_visits parsed named
    have noArray : ∀ tip ∈ tipsOf table, tip.2 ≠ none := by rw [htips]; decide
    refine ⟨_, ofToml_eq parsed noArray, ?_⟩
    obtain ⟨-, holds⟩ := (hok _).mp (ofToml_eq parsed noArray)
    refine (holds "a:b" "2").mpr ⟨[(["a", "b"], .integer 1), (["a", "c"], .boolean true)], ["a:b"],
      .integer 2, [], ?_, by decide +kernel, by decide +kernel, nofun⟩
    rw [leavesOf, htips]
    rfl
  · have hparse : (Toml.parse? crowded).map (fun table => (tipsOf table, table.map Prod.fst)) =
        some ([(["a", "x"], some (.integer 1)), (["a", "y"], none), (["a", "z"], some (.integer 2)),
          (["b", "x"], none)], ["a", "b"]) := by
      decide +kernel
    obtain ⟨table, parsed, heq⟩ := Option.map_eq_some_iff.mp hparse
    obtain ⟨htips, hkeys⟩ := Prod.mk.inj heq
    have named := Toml.named_of_keys (by rw [hkeys]; decide)
    obtain ⟨-, herror, -⟩ := ofToml_visits parsed named
    exact (herror _).mpr ⟨[(["a", "x"], some (.integer 1))], ["a", "y"],
      [(["a", "z"], some (.integer 2)), (["b", "x"], none)], htips, by decide, by decide +kernel⟩

end Dataflow.Config
