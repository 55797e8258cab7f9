import Dataflow.Proofs.Config.Blocks
import Dataflow.Proofs.Config.Flattening

/-!
# Blocks of documents

A table of a document becomes a block of its configuration. Taking the block out again gives the
configuration of the table alone, whatever keys the table has and however they collide: each scalar
of it comes in its turn, under the same key behind the name of the block. Only an outermost table
with the empty name gets in between, since what is in it is stored as if it stood beside it.
-/

namespace Dataflow

namespace Toml

theorem tipsOf_append (one other : Table) : tipsOf (one ++ other) = tipsOf one ++ tipsOf other := by
  induction one with
  | nil => rfl
  | cons first rest ih => rw [List.cons_append, tipsOf, tipsOf, ih, List.append_assoc]

theorem leavesOf_append (one other : Table) :
    leavesOf (one ++ other) = leavesOf one ++ leavesOf other := by
  rw [leavesOf, tipsOf_append, List.filterMap_append]
  rfl

theorem leavesOf_block (block : String) (entries : Table) :
    leavesOf [(block, .table entries)] =
      (leavesOf entries).map fun leaf => (block :: leaf.1, leaf.2) := by
  rw [leavesOf, tipsOf, tipsOf, List.append_nil, List.filterMap_map, leavesOf, List.map_filterMap]
  refine List.filterMap_congr fun tip _ => ?_
  rw [Option.map_map]
  rfl

theorem noArray_of_entry {table : Table} (noArray : ∀ tip ∈ tipsOf table, tip.2 ≠ none)
    {key : String} {entries : Table} (hentry : (key, .table entries) ∈ table) :
    ∀ tip ∈ tipsOf entries, tip.2 ≠ none :=
  fun tip htip => noArray (key :: tip.1, tip.2) (mem_tipsOf.mpr ⟨key, _, tip.1, hentry, htip, rfl⟩)

/-- The entries of the table under a key. -/
def blockAt? (table : Table) (key : String) : Option Table :=
  match table.lookup key with
  | some (.table entries) => some entries
  | _ => none

theorem mem_of_blockAt? {table entries : Table} {key : String}
    (h : blockAt? table key = some entries) : (key, .table entries) ∈ table := by
  rw [blockAt?] at h
  split at h
  · rename_i found hfind
    obtain rfl := Option.some.inj h
    obtain ⟨before, rest, rfl, -⟩ := List.lookup_eq_some_iff.mp hfind
    exact List.mem_append_right before List.mem_cons_self
  · exact nomatch h

/-- The entries of the outermost table with the empty name. -/
def namelessOf (table : Table) : Table := (blockAt? table "").getD []

theorem namelessOf_of_named {table : Table} (named : ∀ entries, ("", .table entries) ∉ table) :
    namelessOf table = [] := by
  cases h : blockAt? table "" with
  | none => rw [namelessOf, h, Option.getD_none]
  | some entries => exact absurd (mem_of_blockAt? h) (named entries)

theorem noArray_namelessOf {table : Table} (noArray : ∀ tip ∈ tipsOf table, tip.2 ≠ none) :
    ∀ tip ∈ tipsOf (namelessOf table), tip.2 ≠ none := by
  cases h : blockAt? table "" with
  | none =>
    rw [namelessOf, h, Option.getD_none]
    exact nofun
  | some entries =>
    rw [namelessOf, h, Option.getD_some]
    exact noArray_of_entry noArray (mem_of_blockAt? h)

/-- No key comes before the empty one. -/
theorem head_of_nameless {table : Table} (h : (Value.table table).Ordered) {value : Value}
    (hentry : ("", value) ∈ table) : ∃ rest, table = ("", value) :: rest := by
  cases h with
  | table keys fit =>
    cases table with
    | nil => exact nomatch hentry
    | cons first rest =>
      rcases List.mem_cons.mp hentry with rfl | hrest
      · exact ⟨rest, rfl⟩
      · have hlt := (List.pairwise_cons.mp keys).1 _ hrest
        exact absurd (String.lt_iff.mp hlt) (List.not_lt_nil _)

end Toml

namespace Config

open Toml (tipsOf leavesOf namelessOf)

/-! ## Keys in a block -/

theorem takeWhile_block {block : String} (plain : ':' ∉ block.toList) (key : String) :
    (block ++ separator ++ key).toList.takeWhile (· ≠ ':') = block.toList := by
  have hblock : ∀ c ∈ block.toList, decide (c ≠ ':') = true :=
    fun c hc => decide_eq_true fun heq => plain (heq ▸ hc)
  rw [String.toList_append, String.toList_append, List.append_assoc,
    List.takeWhile_append_of_pos hblock]
  exact List.append_nil _

/-- A path stays out of the blocks that have other names than its first key. Only a first key that is
empty tells nothing, since it is lost when the path goes on. -/
theorem pathKey_ne_inBlock {block key other : String} {path : List String}
    (plain : ':' ∉ block.toList) (plain' : ':' ∉ other.toList) (hne : other ≠ block)
    (whole : other ≠ "" ∨ path = []) : pathKey (other :: path) ≠ block ++ separator ++ key := by
  intro heq
  have hmem : ':' ∈ (block ++ separator ++ key).toList := by simp [separator]
  by_cases hempty : other = ""
  · obtain rfl := whole.resolve_left (not_not.mpr hempty)
    subst hempty
    rw [← heq] at hmem
    exact nomatch hmem
  · rw [pathKey, Toml.stem_cons_of_ne hempty] at heq
    cases path with
    | nil =>
      rw [String.intercalate_singleton] at heq
      exact plain' (heq ▸ hmem)
    | cons next rest =>
      rw [String.intercalate_cons_cons] at heq
      have hname := takeWhile_block plain' (separator.intercalate (next :: rest))
      rw [heq, takeWhile_block plain key] at hname
      exact hne (String.toList_inj.mp hname.symm)

/-- The key of a path through a block is the key within the block, behind the name of the block. -/
theorem pathKey_block {block : String} (hblock : block ≠ "") {entries : Toml.Table}
    (named : ∀ inner, ("", .table inner) ∉ entries) {leaf : List String × Toml.Leaf}
    (hleaf : leaf ∈ leavesOf entries) :
    pathKey (block :: leaf.1) = block ++ separator ++ pathKey leaf.1 := by
  have htip := Toml.mem_leavesOf.mp hleaf
  obtain ⟨key, value, path, -, -, hpath⟩ := Toml.mem_tipsOf.mp htip
  rw [pathKey_eq_intercalate named htip, pathKey, Toml.stem_cons_of_ne hblock]
  dsimp only at hpath ⊢
  rw [hpath, String.intercalate_cons_cons]

/-! ## Texts of tables -/

/-- Later entries are stored over earlier ones. -/
theorem textAt_append (one other : Toml.Table) (key : String) :
    textAt (one ++ other) key = (textAt other key).or (textAt one key) := by
  rw [textAt, Toml.leavesOf_append, stored?_append, Option.map_or]
  rfl

theorem textAt_nameless (entries : Toml.Table) (key : String) :
    textAt [("", .table entries)] key = textAt entries key := by
  rw [textAt, Toml.leavesOf_block, stored?_map, Option.map_map]
  rfl

theorem textAt_block {block : String} (hblock : block ≠ "") {entries : Toml.Table}
    (named : ∀ inner, ("", .table inner) ∉ entries) (key : String) :
    textAt [(block, .table entries)] (block ++ separator ++ key) = textAt entries key := by
  have hstored : stored? (fun leaf => pathKey (block :: leaf.1)) (leavesOf entries)
      (block ++ separator ++ key) = stored? (fun leaf => pathKey leaf.1) (leavesOf entries) key := by
    refine stored?_congr fun leaf hleaf => ?_
    rw [pathKey_block hblock named hleaf, String.append_right_inj]
  rw [textAt, Toml.leavesOf_block, stored?_map, Option.map_map, hstored]
  rfl

/-- Entries of other names leave nothing in a block, if none of them is a nameless table. -/
theorem textAt_apart {block : String} (hblock : ':' ∉ block.toList) {table : Toml.Table}
    (plain : ∀ entry ∈ table, ':' ∉ entry.1.toList) (apart : ∀ entry ∈ table, entry.1 ≠ block)
    (named : ∀ inner, ("", .table inner) ∉ table) (key : String) :
    textAt table (block ++ separator ++ key) = none := by
  rw [textAt, Option.map_eq_none_iff, stored?_eq_none_iff]
  intro leaf hleaf
  obtain ⟨other, value, path, hentry, hpath, hleaf⟩ := Toml.mem_tipsOf.mp (Toml.mem_leavesOf.mp hleaf)
  dsimp only at hpath hleaf ⊢
  rw [hleaf]
  refine pathKey_ne_inBlock hblock (plain _ hentry) (apart _ hentry) ?_
  rcases Toml.Value.path_of_mem_tips hpath with hnil | ⟨entries, rfl⟩
  · exact .inr hnil
  · exact .inl fun hempty => named entries (hempty ▸ hentry)

/-- Without a nameless table, a block holds what its table leaves in it. -/
theorem textAt_named {table : Toml.Table} (keys : table.Pairwise fun one other => one.1 < other.1)
    (plain : ∀ entry ∈ table, ':' ∉ entry.1.toList) (named : ∀ inner, ("", .table inner) ∉ table)
    {block : String} {entries : Toml.Table} (hentry : (block, .table entries) ∈ table)
    (hblock : block ≠ "") (named' : ∀ inner, ("", .table inner) ∉ entries) (key : String) :
    textAt table (block ++ separator ++ key) = textAt entries key := by
  have hplain := plain _ hentry
  obtain ⟨before, after, rfl⟩ := List.append_of_mem hentry
  obtain ⟨-, hkeys, hbefore⟩ := List.pairwise_append.mp keys
  have hafter := (List.pairwise_cons.mp hkeys).1
  obtain ⟨plain₁, plain₂⟩ := List.forall_mem_append.mp plain
  -- The entries before the block and those behind it have keys of their own.
  have hearlier : textAt before (block ++ separator ++ key) = none := by
    refine textAt_apart hplain plain₁ (fun entry hmem heq => ?_) (fun inner hmem => ?_) key
    · exact String.lt_irrefl entry.1 (heq ▸ hbefore entry hmem _ List.mem_cons_self)
    · exact named inner (List.mem_append_left _ hmem)
  have hlater : textAt after (block ++ separator ++ key) = none := by
    refine textAt_apart hplain (List.forall_mem_cons.mp plain₂).2 (fun entry hmem heq => ?_)
      (fun inner hmem => ?_) key
    · exact String.lt_irrefl entry.1 (heq ▸ hafter entry hmem)
    · exact named inner (List.mem_append_right _ (List.mem_cons_of_mem _ hmem))
  rw [textAt_append, ← List.singleton_append, textAt_append, textAt_block hblock named', hearlier,
    hlater, Option.none_or, Option.or_none]

/-- A block holds what its table leaves in it, and else what the nameless table does. -/
theorem textAt_inBlock {table : Toml.Table} (h : (Toml.Value.table table).Ordered)
    (plain : ∀ entry ∈ table, ':' ∉ entry.1.toList) {block : String} {entries : Toml.Table}
    (hentry : (block, .table entries) ∈ table) (hblock : block ≠ "")
    (named : ∀ inner, ("", .table inner) ∉ entries) (key : String) :
    textAt table (block ++ separator ++ key) =
      (textAt entries key).or (textAt (namelessOf table) (block ++ separator ++ key)) := by
  have hkeys : table.Pairwise fun one other => one.1 < other.1 := by
    cases h with
    | table keys fit => exact keys
  by_cases hnamed : ∀ inner, ("", .table inner) ∉ table
  · rw [textAt_named hkeys plain hnamed hentry hblock named, Toml.namelessOf_of_named hnamed]
    exact Option.or_none.symm
  · obtain ⟨inner, hinner⟩ := not_forall.mp hnamed
    obtain ⟨rest, rfl⟩ := Toml.head_of_nameless h (not_not.mp hinner)
    obtain ⟨hfirst, hrest⟩ := List.pairwise_cons.mp hkeys
    have hmem : (block, .table entries) ∈ rest :=
      (List.mem_cons.mp hentry).resolve_left fun heq => hblock (Prod.mk.inj heq).1
    rw [← List.singleton_append, textAt_append, textAt_nameless,
      textAt_named hrest (List.forall_mem_cons.mp plain).2 ?_ hmem hblock named]
    · rfl
    · exact fun inner hmem => String.lt_irrefl "" (hfirst _ hmem)

/-- The block under the key of an inner table, when there are no arrays, the outermost keys have no
separators, and there is no nameless table right in the inner one. The block is then the configuration
of the inner table alone, over what an outermost nameless table leaves in the block. So unless there
is such a table, it is the configuration of the inner table, however its keys collide. -/
theorem subblock_ofTable {table : Toml.Table} (ordered : (Toml.Value.table table).Ordered)
    (noArray : ∀ tip ∈ tipsOf table, tip.2 ≠ none)
    (plain : ∀ entry ∈ table, ':' ∉ entry.1.toList) {block : String} (hblock : block ≠ "")
    {entries : Toml.Table} (hentry : (block, .table entries) ∈ table)
    (named : ∀ inner, ("", .table inner) ∉ entries) :
    ∃ c inner stray, ofTable table = .ok c ∧ ofTable entries = .ok inner ∧
      ofTable (namelessOf table) = .ok stray ∧
      c.subblock block = (stray.subblock block).merge inner ∧
      ((∀ nameless, ("", .table nameless) ∉ table) → c.subblock block = inner) := by
  have hinner := Toml.noArray_of_entry noArray hentry
  have hstray := Toml.noArray_namelessOf noArray
  obtain ⟨c, hc⟩ : ∃ c, ofTable table = .ok c := ⟨_, ofTable_eq noArray⟩
  obtain ⟨inner, hi⟩ : ∃ inner, ofTable entries = .ok inner := ⟨_, ofTable_eq hinner⟩
  obtain ⟨stray, hs⟩ : ∃ stray, ofTable (namelessOf table) = .ok stray := ⟨_, ofTable_eq hstray⟩
  have hblocks : c.subblock block = (stray.subblock block).merge inner := by
    refine ext_get? fun key => ?_
    rw [get?_merge, get?_subblock, get?_subblock, get?_ofTable noArray hc,
      get?_ofTable hinner hi, get?_ofTable hstray hs,
      textAt_inBlock ordered plain hentry hblock named]
  refine ⟨c, inner, stray, hc, hi, hs, hblocks, fun hnamed => ?_⟩
  -- Without a nameless table nothing strays into the block.
  rw [hblocks]
  refine ext_get? fun key => ?_
  rw [get?_merge, get?_subblock, get?_ofTable hstray hs, Toml.namelessOf_of_named hnamed]
  exact Option.or_none

/-- The table of a document is in the order of its keys, so the same holds of blocks of documents. -/
theorem subblock_ofToml {source : String} {table : Toml.Table}
    (parsed : Toml.parse? source = some table) (noArray : ∀ tip ∈ tipsOf table, tip.2 ≠ none)
    (plain : ∀ entry ∈ table, ':' ∉ entry.1.toList) {block : String} (hblock : block ≠ "")
    {entries : Toml.Table} (hentry : (block, .table entries) ∈ table)
    (named : ∀ inner, ("", .table inner) ∉ entries) :
    ∃ c inner stray, ofToml source = .ok c ∧ ofTable entries = .ok inner ∧
      ofTable (namelessOf table) = .ok stray ∧
      c.subblock block = (stray.subblock block).merge inner ∧
      ((∀ nameless, ("", .table nameless) ∉ table) → c.subblock block = inner) := by
  rw [ofToml_of_parsed parsed]
  exact subblock_ofTable (Toml.parse_ordered parsed) noArray plain hblock hentry named

/-- A document with a table in which two keys collide. -/
def crossed : String := "[k]\n\"a:b\" = 2\n[k.a]\nb = 1\n[l]\nx = 3\n"

theorem subblock_ofToml_crossed :
    ∃ table entries c inner, Toml.parse? crossed = some table ∧ ("k", .table entries) ∈ table ∧
      ofToml crossed = .ok c ∧ ofTable entries = .ok inner ∧ c.subblock "k" = inner ∧
      inner.toList = [("a:b", "2")] := by
  have hparse : ((Toml.parse? crossed).bind fun table => (Toml.blockAt? table "k").map fun entries =>
      (tipsOf table, table.map Prod.fst, entries.map Prod.fst)) =
      some ([(["k", "a", "b"], some (.integer 1)), (["k", "a:b"], some (.integer 2)),
        (["l", "x"], some (.integer 3))], ["k", "l"], ["a", "a:b"]) := by
    decide +kernel
  obtain ⟨table, parsed, hblock⟩ := Option.bind_eq_some_iff.mp hparse
  obtain ⟨entries, hentries, heq⟩ := Option.map_eq_some_iff.mp hblock
  obtain ⟨htips, hkeys, hinner⟩ : _ ∧ _ ∧ _ := by simpa only [Prod.mk.injEq] using heq
  have plain : ∀ key ∈ table.map Prod.fst, ':' ∉ key.toList := by rw [hkeys]; decide
  obtain ⟨c, inner, -, hc, hi, -, -, hall⟩ :=
    subblock_ofToml parsed (by rw [htips]; decide)
      (fun entry hentry => plain entry.1 (List.mem_map_of_mem hentry)) (by decide)
      (Toml.mem_of_blockAt? hentries) (Toml.named_of_keys (by rw [hinner]; decide))
  have hsame := hall (Toml.named_of_keys (by rw [hkeys]; decide))
  refine ⟨table, entries, c, inner, parsed, Toml.mem_of_blockAt? hentries, hc, hi, hsame, ?_⟩
  have htexts : (ofToml crossed).toOption.map (fun c => (c.subblock "k").toList) =
      some [("a:b", "2")] := by
    decide +kernel
  rw [hc] at htexts
  rw [← hsame]
  exact Option.some.inj htexts

/-- A document with a table of the name `k` in a nameless table, and one beside it. -/
def stray : String := "[\"\".k]\nx = 1\n[k]\ny = 2\n"

/-- What is in the nameless table strays into the block beside it. -/
theorem stray_entered :
    (Toml.parse? stray).map leavesOf = some [(["", "k", "x"], .integer 1), (["k", "y"], .integer 2)] ∧
      (ofToml stray).toOption.map (fun c => (c.subblock "k").toList) =
        some [("x", "1"), ("y", "2")] ∧
      (ofTable [("y", .leaf (.integer 2))]).toOption.map toList = some [("y", "2")] := by
  decide +kernel

end Config

end Dataflow
