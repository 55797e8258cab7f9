import Dataflow.Toml.Document

/-!
# Keys of tables

No table of a document has two entries with one key, and the entries of a settled table stand in the
order of their keys. Reading a document keeps the keys apart at every place where an entry is added,
and settling it puts them into their order.
-/

namespace Dataflow.Toml

open Text (Read mark?)

/-- Entries of which each key is related to all later ones, with values that are fit. -/
structure Entries {α : Type} (R : String → String → Prop) (Fit : α → Prop)
    (entries : List (String × α)) : Prop where
  keys : entries.Pairwise fun one other => R one.1 other.1
  fit : ∀ entry ∈ entries, Fit entry.2

/-- In every table of a value, each key is related to all later ones. -/
inductive Value.Keyed (R : String → String → Prop) : Value → Prop where
  | leaf {leaf : Leaf} : Keyed R (.leaf leaf)
  | array {items : List Value} (fit : ∀ item ∈ items, Keyed R item) : Keyed R (.array items)
  | table {entries : List (String × Value)}
      (keys : entries.Pairwise fun one other => R one.1 other.1)
      (fit : ∀ entry ∈ entries, Keyed R entry.2) : Keyed R (.table entries)

/-- Whether no table of a value has a key twice. -/
abbrev Value.Apart : Value → Prop := Value.Keyed (· ≠ ·)

/-- Whether every table of a value has its entries in the order of their keys. -/
abbrev Value.Ordered : Value → Prop := Value.Keyed (· < ·)

/-- Whether no table of a tree has a key twice. -/
inductive Node.Apart : Node → Prop where
  | value {value : Value} (h : value.Apart) : Apart (.value value)
  | table {origin : Origin} {entries : List (String × Node)}
      (keys : entries.Pairwise fun one other => one.1 ≠ other.1)
      (fit : ∀ entry ∈ entries, Apart entry.2) : Apart (.table origin entries)
  | series {closed : List (List (String × Node))} {last : List (String × Node)}
      (closedKeys : ∀ entries ∈ closed, entries.Pairwise fun one other => one.1 ≠ other.1)
      (closedFit : ∀ entries ∈ closed, ∀ entry ∈ entries, Apart entry.2)
      (lastKeys : last.Pairwise fun one other => one.1 ≠ other.1)
      (lastFit : ∀ entry ∈ last, Apart entry.2) : Apart (.series closed last)

/-! ## Settled values -/

theorem mem_insertEntry {key : String} {value : Value} {entries : Table} {entry : String × Value} :
    entry ∈ insertEntry key value entries ↔ entry = (key, value) ∨ entry ∈ entries := by
  induction entries with
  | nil => simp [insertEntry]
  | cons first rest ih =>
    rw [insertEntry]
    split
    · exact List.mem_cons
    · rw [List.mem_cons, ih, List.mem_cons, or_left_comm]

theorem lt_of_not_lt_of_ne {a b : String} (h : ¬ a < b) (hne : a ≠ b) : b < a := by
  apply Decidable.byContradiction
  intro hba
  exact hne (String.le_antisymm (String.not_lt.mp hba) (String.not_lt.mp h))

theorem Entries.insert {key : String} {value : Value} {entries : Table}
    (h : Entries (· < ·) Value.Ordered entries) (hvalue : value.Ordered)
    (new : ∀ entry ∈ entries, key ≠ entry.1) :
    Entries (· < ·) Value.Ordered (insertEntry key value entries) where
  fit entry hentry := by
    rcases mem_insertEntry.mp hentry with rfl | hentry
    · exact hvalue
    · exact h.fit entry hentry
  keys := by
    have hkeys := h.keys
    clear h
    induction entries with
    | nil => exact List.pairwise_singleton _ _
    | cons first rest ih =>
      obtain ⟨hfirst, hrest⟩ := List.pairwise_cons.mp hkeys
      obtain ⟨hne, hnew⟩ := List.forall_mem_cons.mp new
      rw [insertEntry]
      split
      · -- The new key comes before the first one, and so before all.
        rename_i hlt
        refine List.pairwise_cons.mpr ⟨fun entry hentry => ?_, hkeys⟩
        rcases List.mem_cons.mp hentry with rfl | hentry
        · exact hlt
        · exact String.lt_trans hlt (hfirst entry hentry)
      · rename_i hlt
        refine List.pairwise_cons.mpr ⟨fun entry hentry => ?_, ih hnew hrest⟩
        rcases mem_insertEntry.mp hentry with rfl | hentry
        · exact lt_of_not_lt_of_ne hlt hne
        · exact hfirst entry hentry

/-- The keys of settled entries are those that were there before. -/
theorem mem_settleEntries {entries settled : Table} (h : settleEntries? entries = some settled)
    {entry : String × Value} (hentry : entry ∈ settled) : ∃ before ∈ entries, before.1 = entry.1 := by
  induction entries generalizing settled with
  | nil =>
    obtain rfl : [] = settled := Option.some.inj h
    exact nomatch hentry
  | cons first rest ih =>
    obtain ⟨key, value⟩ := first
    simp only [settleEntries?, Option.bind_eq_bind, Option.bind_eq_some_iff] at h
    obtain ⟨value', hvalue, rest', hrest, h⟩ := h
    obtain rfl := Option.some.inj h
    rcases mem_insertEntry.mp hentry with rfl | hentry
    · exact ⟨(key, value), List.mem_cons_self, rfl⟩
    · obtain ⟨before, hbefore, hkey⟩ := ih hrest hentry
      exact ⟨before, List.mem_cons_of_mem _ hbefore, hkey⟩

mutual

theorem Value.Apart.settle {value settled : Value} (h : value.Apart)
    (hsettle : value.settle? = some settled) : settled.Ordered := by
  match value with
  | .leaf leaf =>
    rw [Value.settle?] at hsettle
    exact Option.some.inj hsettle ▸ .leaf
  | .array items =>
    rw [Value.settle?] at hsettle
    obtain ⟨items', hitems, rfl⟩ := Option.map_eq_some_iff.mp hsettle
    cases h with
    | array fit => exact .array (settleItems_ordered fit hitems)
  | .table entries =>
    rw [Value.settle?] at hsettle
    split at hsettle
    · obtain ⟨moment, -, rfl⟩ := Option.map_eq_some_iff.mp hsettle
      exact .leaf
    · obtain ⟨entries', hentries, rfl⟩ := Option.map_eq_some_iff.mp hsettle
      cases h with
      | table keys fit =>
        have hordered := settleEntries_ordered ⟨keys, fit⟩ hentries
        exact .table hordered.keys hordered.fit

theorem settleItems_ordered {items settled : List Value} (h : ∀ item ∈ items, item.Apart)
    (hsettle : settleItems? items = some settled) : ∀ item ∈ settled, item.Ordered := by
  match items with
  | [] =>
    obtain rfl : [] = settled := Option.some.inj hsettle
    exact nofun
  | item :: rest =>
    simp only [settleItems?, Option.bind_eq_bind, Option.bind_eq_some_iff] at hsettle
    obtain ⟨item', hitem, rest', hrest, hsettle⟩ := hsettle
    obtain rfl := Option.some.inj hsettle
    obtain ⟨hhere, hlater⟩ := List.forall_mem_cons.mp h
    exact List.forall_mem_cons.mpr ⟨hhere.settle hitem, settleItems_ordered hlater hrest⟩

theorem settleEntries_ordered {entries settled : Table} (h : Entries (· ≠ ·) Value.Apart entries)
    (hsettle : settleEntries? entries = some settled) :
    Entries (· < ·) Value.Ordered settled := by
  match entries with
  | [] =>
    obtain rfl : [] = settled := Option.some.inj hsettle
    exact ⟨.nil, nofun⟩
  | (key, value) :: rest =>
    simp only [settleEntries?, Option.bind_eq_bind, Option.bind_eq_some_iff] at hsettle
    obtain ⟨value', hvalue, rest', hrest, hsettle⟩ := hsettle
    obtain rfl := Option.some.inj hsettle
    obtain ⟨hkey, hkeys⟩ := List.pairwise_cons.mp h.keys
    obtain ⟨hfirst, hfit⟩ := List.forall_mem_cons.mp h.fit
    -- Settling renames no key, so that the first one is still new to the rest.
    refine (settleEntries_ordered ⟨hkeys, hfit⟩ hrest).insert (hfirst.settle hvalue) ?_
    intro entry hentry
    obtain ⟨before, hbefore, heq⟩ := mem_settleEntries hrest hentry
    exact heq ▸ hkey before hbefore

end

/-! ## Tables under construction -/

/-- Whether no table below an open one has a key twice, nor has it itself. -/
abbrev OpenTable.Apart (t : OpenTable) : Prop := Entries (· ≠ ·) Node.Apart t.entries

theorem mem_putEntry {α : Type} {key : String} {value : α} {entries : List (String × α)}
    {entry : String × α} (h : entry ∈ putEntry key value entries) :
    entry = (key, value) ∨ entry ∈ entries := by
  induction entries with
  | nil => exact .inl (List.mem_singleton.mp h)
  | cons first rest ih =>
    rw [putEntry] at h
    split at h
    · exact (List.mem_cons.mp h).imp id (List.mem_cons_of_mem _)
    · rcases List.mem_cons.mp h with rfl | h
      · exact .inr List.mem_cons_self
      · exact (ih h).imp id (List.mem_cons_of_mem _)

theorem Entries.put {α : Type} {Fit : α → Prop} {key : String} {value : α}
    {entries : List (String × α)} (h : Entries (· ≠ ·) Fit entries) (hvalue : Fit value) :
    Entries (· ≠ ·) Fit (putEntry key value entries) where
  fit entry hentry := by
    rcases mem_putEntry hentry with rfl | hentry
    · exact hvalue
    · exact h.fit entry hentry
  keys := by
    have hkeys := h.keys
    clear h
    induction entries with
    | nil => exact List.pairwise_singleton _ _
    | cons first rest ih =>
      obtain ⟨hfirst, hrest⟩ := List.pairwise_cons.mp hkeys
      rw [putEntry]
      split
      · rename_i hkey
        exact List.pairwise_cons.mpr ⟨fun entry hentry => hkey ▸ hfirst entry hentry, hrest⟩
      · rename_i hkey
        refine List.pairwise_cons.mpr ⟨fun entry hentry => ?_, ih hrest⟩
        rcases mem_putEntry hentry with rfl | hentry
        · exact hkey
        · exact hfirst entry hentry

namespace OpenTable

theorem find?_apart {t : OpenTable} (h : t.Apart) {key : String} {node : Node}
    (hfind : t.find? key = some node) : node.Apart := by
  obtain ⟨before, rest, hentries, -⟩ := List.lookup_eq_some_iff.mp hfind
  exact h.fit (key, node) (hentries ▸ List.mem_append_right before List.mem_cons_self)

theorem put_apart {t : OpenTable} (h : t.Apart) {key : String} {node : Node} (hnode : node.Apart) :
    (t.put key node).Apart :=
  Entries.put h hnode

theorem putLast_apart {t : OpenTable} (h : t.Apart) {key : String} {node : Node}
    (hnode : node.Apart) : (t.putLast key node).Apart where
  fit entry hentry := by
    rcases List.mem_append.mp hentry with hentry | hentry
    · exact h.fit entry (List.mem_filter.mp hentry).1
    · obtain rfl := List.mem_singleton.mp hentry
      exact hnode
  keys := by
    refine List.pairwise_append.mpr ⟨h.keys.filter _, List.pairwise_singleton _ _, ?_⟩
    intro one hone other hother
    obtain rfl := List.mem_singleton.mp hother
    exact of_decide_eq_true (List.mem_filter.mp hone).2

theorem node_apart {t : OpenTable} (h : t.Apart) : t.node.Apart := .table h.keys h.fit

theorem descend_apart {dotted : Bool} {path : List String} {change : OpenTable → Option OpenTable}
    (keeps : ∀ {t after : OpenTable}, t.Apart → change t = some after → after.Apart)
    {t after : OpenTable} (h : t.Apart) (hdescend : t.descend dotted path change = some after) :
    after.Apart := by
  induction path generalizing t after with
  | nil => exact keeps h hdescend
  | cons key path ih =>
    -- Whatever is under the key, what comes of its table is put back in its place.
    have hput (child : OpenTable) (wrap : OpenTable → Node) (hchild : child.Apart)
        (hwrap : ∀ t : OpenTable, t.Apart → (wrap t).Apart)
        (hdo : ((child.descend dotted path change).bind fun t' => some (t.put key (wrap t'))) =
          some after) : after.Apart := by
      obtain ⟨child', hchild', hafter⟩ := Option.bind_eq_some_iff.mp hdo
      exact Option.some.inj hafter ▸ put_apart h (hwrap child' (ih hchild hchild'))
    rw [descend] at hdescend
    split at hdescend
    · exact hput ⟨_, []⟩ node ⟨.nil, nofun⟩ (fun _ => node_apart) hdescend
    · exact nomatch hdescend
    · rename_i closed last hfind
      cases find?_apart h hfind with
      | series closedKeys closedFit lastKeys lastFit =>
        exact hput ⟨.header, last⟩ (fun t => .series closed t.entries) ⟨lastKeys, lastFit⟩
          (fun _ hlast => .series closedKeys closedFit hlast.keys hlast.fit) hdescend
    · rename_i origin entries hfind
      split at hdescend
      · exact nomatch hdescend
      · cases find?_apart h hfind with
        | table keys fit =>
          exact hput ⟨origin, entries⟩ node ⟨keys, fit⟩ (fun _ => node_apart) hdescend

theorem addValue_apart {path : List String} {key : String} {value : Value} {t after : OpenTable}
    (h : t.Apart) (hvalue : value.Apart) (hadd : t.addValue path key value = some after) :
    after.Apart := by
  refine descend_apart (fun ht hchange => ?_) h hadd
  split at hchange
  · exact nomatch hchange
  · exact Option.some.inj hchange ▸ put_apart ht (.value hvalue)

theorem openTable_apart {path : List String} {key : String} {t after : OpenTable} (h : t.Apart)
    (hopen : t.openTable path key = some after) : after.Apart := by
  refine descend_apart (fun {t _} ht hchange => ?_) h hopen
  split at hchange
  · exact Option.some.inj hchange ▸ put_apart ht (.table .nil nofun)
  · rename_i entries hfind
    cases find?_apart ht hfind with
    | table keys fit => exact Option.some.inj hchange ▸ putLast_apart ht (.table keys fit)
  · exact nomatch hchange

theorem openItem_apart {path : List String} {key : String} {t after : OpenTable} (h : t.Apart)
    (hopen : t.openItem path key = some after) : after.Apart := by
  refine descend_apart (fun {t _} ht hchange => ?_) h hopen
  split at hchange
  · exact Option.some.inj hchange ▸ put_apart ht (.series nofun nofun .nil nofun)
  · rename_i closed last hfind
    cases find?_apart ht hfind with
    | series closedKeys closedFit lastKeys lastFit =>
      -- The table that was open until now is closed, and an empty one is opened.
      refine Option.some.inj hchange ▸ put_apart ht (.series ?_ ?_ .nil nofun)
      · exact List.forall_mem_append.mpr ⟨closedKeys, List.forall_mem_singleton.mpr lastKeys⟩
      · exact List.forall_mem_append.mpr ⟨closedFit, List.forall_mem_singleton.mpr lastFit⟩
  · exact nomatch hchange

end OpenTable

theorem mem_finishEntries {entries : List (String × Node)} {entry : String × Value}
    (h : entry ∈ finishEntries entries) : ∃ before ∈ entries, before.1 = entry.1 := by
  induction entries with
  | nil => exact nomatch h
  | cons first rest ih =>
    rcases List.mem_cons.mp h with rfl | h
    · exact ⟨first, List.mem_cons_self, rfl⟩
    · obtain ⟨before, hbefore, hkey⟩ := ih h
      exact ⟨before, List.mem_cons_of_mem _ hbefore, hkey⟩

mutual

theorem Node.Apart.finish {node : Node} (h : node.Apart) : node.finish.Apart := by
  match node with
  | .value value =>
    cases h with
    | value h => exact h
  | .table origin entries =>
    cases h with
    | table keys fit =>
      have hfinished := finishEntries_apart ⟨keys, fit⟩
      exact .table hfinished.keys hfinished.fit
  | .series closed last =>
    cases h with
    | series closedKeys closedFit lastKeys lastFit =>
      have hlast := finishEntries_apart ⟨lastKeys, lastFit⟩
      refine .array (List.forall_mem_append.mpr ⟨?_, List.forall_mem_singleton.mpr ?_⟩)
      · exact finishItems_apart fun entries hentries =>
          ⟨closedKeys entries hentries, closedFit entries hentries⟩
      · exact .table hlast.keys hlast.fit

theorem finishEntries_apart {entries : List (String × Node)}
    (h : Entries (· ≠ ·) Node.Apart entries) :
    Entries (· ≠ ·) Value.Apart (finishEntries entries) := by
  match entries with
  | [] => exact ⟨.nil, nofun⟩
  | (key, node) :: rest =>
    obtain ⟨hkey, hkeys⟩ := List.pairwise_cons.mp h.keys
    obtain ⟨hnode, hfit⟩ := List.forall_mem_cons.mp h.fit
    have hrest := finishEntries_apart ⟨hkeys, hfit⟩
    rw [finishEntries]
    refine ⟨List.pairwise_cons.mpr ⟨fun entry hentry => ?_, hrest.keys⟩,
      List.forall_mem_cons.mpr ⟨hnode.finish, hrest.fit⟩⟩
    obtain ⟨before, hbefore, heq⟩ := mem_finishEntries hentry
    exact heq ▸ hkey before hbefore

theorem finishItems_apart {closed : List (List (String × Node))}
    (h : ∀ entries ∈ closed, Entries (· ≠ ·) Node.Apart entries) :
    ∀ item ∈ finishItems closed, item.Apart := by
  match closed with
  | [] => exact nofun
  | entries :: rest =>
    obtain ⟨hhere, hlater⟩ := List.forall_mem_cons.mp h
    have hentries := finishEntries_apart hhere
    rw [finishItems]
    exact List.forall_mem_cons.mpr ⟨.table hentries.keys hentries.fit, finishItems_apart hlater⟩

end

/-! ## Documents -/

theorem addValues_apart {entries : List ((List String × String) × Value)}
    (h : ∀ entry ∈ entries, entry.2.Apart) {t after : OpenTable} (ht : t.Apart)
    (hadd : entries.foldlM (fun t ((path, key), value) => t.addValue path key value) t =
      some after) : after.Apart := by
  induction entries generalizing t with
  | nil => exact Option.some.inj hadd ▸ ht
  | cons first rest ih =>
    obtain ⟨hvalue, hrest⟩ := List.forall_mem_cons.mp h
    rw [List.foldlM_cons] at hadd
    obtain ⟨t', hfirst, hadd⟩ := Option.bind_eq_some_iff.mp hadd
    exact ih hrest (OpenTable.addValue_apart ht hvalue hfirst) hadd

theorem tableOfEntries_apart {entries : List ((List String × String) × Value)} {table : Table}
    (h : ∀ entry ∈ entries, entry.2.Apart) (htable : tableOfEntries? entries = some table) :
    (Value.table table).Apart := by
  obtain ⟨t, hadd, htable⟩ := Option.bind_eq_some_iff.mp htable
  have root : OpenTable.root.Apart := ⟨.nil, nofun⟩
  have hfinished := finishEntries_apart (addValues_apart h root hadd)
  exact Option.some.inj htable ▸ .table hfinished.keys hfinished.fit

/-- What is read with some fuel has no key twice. -/
structure ReadsApart (fuel : Nat) : Prop where
  value : ∀ {depth cs value left}, value? depth fuel cs = some (value, left) → value.Apart
  items : ∀ {depth cs items left}, items? depth fuel cs = some (items, left) →
    ∀ item ∈ items, item.Apart
  entries : ∀ {depth cs entries left}, entries? depth fuel cs = some (entries, left) →
    ∀ entry ∈ entries, entry.2.Apart

theorem readsApart_zero : ReadsApart 0 := by
  constructor
  · intro depth cs value left h
    unfold value? at h
    exact nomatch h
  · intro depth cs items left h
    unfold items? at h
    exact nomatch h
  · intro depth cs entries left h
    unfold entries? at h
    exact nomatch h

namespace ReadsApart

variable {fuel : Nat} (ih : ReadsApart fuel)
include ih

theorem value_succ {depth : Nat} {cs : List Char} {value : Value} {left : List Char}
    (h : value? depth (fuel + 1) cs = some (value, left)) : value.Apart := by
  unfold value? at h
  -- An array, an inline table with or without entries, or a leaf.
  split at h
  · split at h
    · exact nomatch h
    · obtain ⟨⟨items, rest⟩, hread, heq⟩ := Option.map_eq_some_iff.mp h
      obtain ⟨rfl, rfl⟩ := Prod.mk.inj heq
      exact .array (ih.items hread)
  · split at h
    · exact nomatch h
    · split at h
      · obtain ⟨read, hread, h⟩ := Option.bind_eq_some_iff.mp h
        obtain rfl := Option.some.inj hread
        obtain ⟨table, htable, h⟩ := Option.bind_eq_some_iff.mp h
        obtain ⟨rfl, rfl⟩ := Prod.mk.inj (Option.some.inj h)
        exact tableOfEntries_apart (List.forall_mem_nil _) htable
      · obtain ⟨⟨entries, rest⟩, hread, h⟩ := Option.bind_eq_some_iff.mp h
        obtain ⟨table, htable, h⟩ := Option.bind_eq_some_iff.mp h
        obtain ⟨rfl, rfl⟩ := Prod.mk.inj (Option.some.inj h)
        exact tableOfEntries_apart (ih.entries hread) htable
  · obtain ⟨⟨leaf, rest⟩, hread, heq⟩ := Option.map_eq_some_iff.mp h
    obtain ⟨rfl, rfl⟩ := Prod.mk.inj heq
    exact .leaf

theorem items_succ {depth : Nat} {cs : List Char} {items : List Value} {left : List Char}
    (h : items? depth (fuel + 1) cs = some (items, left)) : ∀ item ∈ items, item.Apart := by
  unfold items? at h
  obtain ⟨cs, -, h⟩ := Option.bind_eq_some_iff.mp h
  split at h
  · obtain ⟨rfl, rfl⟩ := Prod.mk.inj (Option.some.inj h)
    exact nofun
  · obtain ⟨⟨item, cs⟩, hitem, h⟩ := Option.bind_eq_some_iff.mp h
    obtain ⟨cs', -, h⟩ := Option.bind_eq_some_iff.mp h
    have hfirst := ih.value hitem
    split at h
    · obtain ⟨rfl, rfl⟩ := Prod.mk.inj (Option.some.inj h)
      exact List.forall_mem_singleton.mpr hfirst
    · obtain ⟨⟨items, rest⟩, hrest, h⟩ := Option.bind_eq_some_iff.mp h
      obtain ⟨rfl, rfl⟩ := Prod.mk.inj (Option.some.inj h)
      exact List.forall_mem_cons.mpr ⟨hfirst, ih.items hrest⟩
    · exact nomatch h

theorem entries_succ {depth : Nat} {cs : List Char}
    {entries : List ((List String × String) × Value)} {left : List Char}
    (h : entries? depth (fuel + 1) cs = some (entries, left)) :
    ∀ entry ∈ entries, entry.2.Apart := by
  unfold entries? at h
  obtain ⟨⟨key, cs⟩, -, h⟩ := Option.bind_eq_some_iff.mp h
  obtain ⟨cs', -, h⟩ := Option.bind_eq_some_iff.mp h
  obtain ⟨⟨value, cs⟩, hvalue, h⟩ := Option.bind_eq_some_iff.mp h
  have hfirst := ih.value hvalue
  dsimp only at h
  split at h
  · obtain ⟨rfl, rfl⟩ := Prod.mk.inj (Option.some.inj h)
    exact List.forall_mem_singleton.mpr hfirst
  · obtain ⟨⟨entries, rest⟩, hrest, h⟩ := Option.bind_eq_some_iff.mp h
    obtain ⟨rfl, rfl⟩ := Prod.mk.inj (Option.some.inj h)
    exact List.forall_mem_cons.mpr ⟨hfirst, ih.entries hrest⟩
  · exact nomatch h

end ReadsApart

theorem readsApart (fuel : Nat) : ReadsApart fuel := by
  induction fuel with
  | zero => exact readsApart_zero
  | succ fuel ih => exact ⟨ih.value_succ, ih.items_succ, ih.entries_succ⟩

theorem entry_apart {cs left : List Char} {key : List String × String} {value : Value}
    (h : entry? cs = some ((key, value), left)) : value.Apart := by
  obtain ⟨⟨key', cs⟩, -, h⟩ := Option.bind_eq_some_iff.mp h
  obtain ⟨cs', -, h⟩ := Option.bind_eq_some_iff.mp h
  obtain ⟨⟨value', cs⟩, hvalue, h⟩ := Option.bind_eq_some_iff.mp h
  obtain ⟨left', -, h⟩ := Option.bind_eq_some_iff.mp h
  obtain ⟨hentry, -⟩ := Prod.mk.inj (Option.some.inj h)
  obtain ⟨-, rfl⟩ := Prod.mk.inj hentry
  exact (readsApart _).value hvalue

/-- No line adds a key that is there already. -/
theorem line_apart {p after : Progress} {cs left : List Char} (hp : p.root.Apart)
    (h : line? p cs = some (after, left)) : after.root.Apart := by
  have hsame {left' : List Char} (h : some (p, left') = some (after, left)) : after.root.Apart :=
    (Prod.mk.inj (Option.some.inj h)).1 ▸ hp
  unfold line? at h
  -- Blank lines and comments add nothing. The other lines open a table of a series, open a table,
  -- or add a value to the one that is open.
  split at h
  · exact hsame h
  · exact hsame h
  · exact hsame h
  · obtain ⟨left', -, h⟩ := Option.map_eq_some_iff.mp h
    exact hsame (congrArg some h)
  · obtain ⟨⟨⟨path, key⟩, left'⟩, -, h⟩ := Option.bind_eq_some_iff.mp h
    obtain ⟨root, hroot, h⟩ := Option.bind_eq_some_iff.mp h
    obtain ⟨rfl, -⟩ := Prod.mk.inj (Option.some.inj h)
    exact OpenTable.openItem_apart hp hroot
  · obtain ⟨⟨⟨path, key⟩, left'⟩, -, h⟩ := Option.bind_eq_some_iff.mp h
    obtain ⟨root, hroot, h⟩ := Option.bind_eq_some_iff.mp h
    obtain ⟨rfl, -⟩ := Prod.mk.inj (Option.some.inj h)
    exact OpenTable.openTable_apart hp hroot
  · obtain ⟨⟨⟨⟨path, key⟩, value⟩, left'⟩, hentry, h⟩ := Option.bind_eq_some_iff.mp h
    obtain ⟨root, hroot, h⟩ := Option.bind_eq_some_iff.mp h
    obtain ⟨rfl, -⟩ := Prod.mk.inj (Option.some.inj h)
    exact OpenTable.descend_apart
      (fun ht hadd => OpenTable.addValue_apart ht (entry_apart hentry) hadd) hp hroot

theorem lines_apart {fuel : Nat} {p after : Progress} {cs : List Char} (hp : p.root.Apart)
    (h : lines? fuel p cs = some after) : after.root.Apart := by
  induction fuel generalizing p cs with
  | zero =>
    cases cs with
    | nil => exact Option.some.inj h ▸ hp
    | cons c rest => exact nomatch h
  | succ fuel ih =>
    cases cs with
    | nil => exact Option.some.inj h ▸ hp
    | cons c rest =>
      obtain ⟨⟨p', left⟩, hline, h⟩ := Option.bind_eq_some_iff.mp h
      exact ih (line_apart hp hline) h

/-- The table of a document is in the order of its keys at every level, and so has no key twice. -/
theorem parse_ordered {source : String} {table : Table} (h : parse? source = some table) :
    (Value.table table).Ordered := by
  obtain ⟨p, hlines, h⟩ := Option.bind_eq_some_iff.mp h
  have root : OpenTable.root.Apart := ⟨.nil, nofun⟩
  have hsettled := settleEntries_ordered (finishEntries_apart (lines_apart root hlines)) h
  exact .table hsettled.keys hsettled.fit

end Dataflow.Toml
