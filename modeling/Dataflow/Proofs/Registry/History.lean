import Mathlib.Data.List.Induction
import Dataflow.Proofs.Config.Stored
import Dataflow.Proofs.Lookup
import Dataflow.Registry

/-!
# Texts over a whole history

What was done to a registry, one declaration and one update after the other, says what the text of
each of its keys is. The first declaration of a key is the one that counts. An update counts for the
keys that are declared to be tunable when it comes.
-/

namespace Dataflow

namespace Registry

/-- One thing done to a registry. -/
inductive Entry where
  | declare (key : String) (info : KeyInfo)
  | reconfigure (update : Config)

namespace Entry

/-- What an entry declares of a key. -/
def info? (key : String) : Entry → Option KeyInfo
  | declare other info => if other = key then some info else none
  | reconfigure _ => none

/-- The text that an entry has for a key. -/
def text? (key : String) : Entry → Option String
  | declare _ _ => none
  | reconfigure update => update.get? key

end Entry

/-- The registry after one entry. A declaration that fails leaves it as it was. -/
def enter (r : Registry) : Entry → Registry
  | .declare key info => (r.declare key info).toOption.getD r
  | .reconfigure update => (r.reconfigure update).2

def after (r : Registry) (history : List Entry) : Registry := history.foldl enter r

/-- What the first declaration of a key says of it. -/
def infoIn? (key : String) (history : List Entry) : Option KeyInfo :=
  history.findSome? (Entry.info? key)

/-- The texts that are given to a key, from its first declaration on, if that makes it tunable. -/
def textsIn (key : String) : List Entry → List String
  | [] => []
  | .declare other info :: rest =>
    if other = key then
      if info.tunable then rest.filterMap (Entry.text? key) else []
    else textsIn key rest
  | .reconfigure _ :: rest => textsIn key rest

/-- The text of a key without a default: the last one given, or else the configured one. -/
def textIn? (config : Config) (key : String) (history : List Entry) : Option String :=
  (textsIn key history).getLast?.or (config.get? key)

/-- Whether a declaration of a key has succeeded. -/
def Succeeded (config : Config) (key : String) (history : List Entry) : Prop :=
  ∃ before info rest, history = before ++ .declare key info :: rest ∧
    (((ofConfig config).after before).declare key info).isOk = true

/-- Whether a registry is what its history says. -/
structure Tells (r : Registry) (config : Config) (history : List Entry) : Prop where
  unknown (key : String) :
    r.raw key = .error (.unknownKey key) ↔ ¬ Succeeded config key history
  raw {key : String} {info : KeyInfo} : infoIn? key history = some info →
    r.raw key = .ok ((textIn? config key history).getD info.default)
  first {before : List Entry} {key : String} {info : KeyInfo} {rest : List Entry} :
    history = before ++ .declare key info :: rest →
      ((((ofConfig config).after before).declare key info).isOk = true ↔ infoIn? key before = none)
  again {key : String} {info : KeyInfo} (other : KeyInfo) : infoIn? key history = some info →
    r.declare key other = .error (.duplicateKey key) ∧ r.enter (.declare key other) = r
  idle {before : List Entry} {update : Config} {rest : List Entry} {key : String} :
    history = before ++ .reconfigure update :: rest →
      ((ofConfig config).after before).isTunable key = false →
        ((ofConfig config).after (before ++ rest)).raw key = r.raw key
  undeclared {key : String} : infoIn? key history = none → r.values.get? key = config.get? key

/-! ## One entry -/

theorem declare_eq_ok {r after : Registry} {key : String} {info : KeyInfo} :
    r.declare key info = .ok after ↔
      r.infos[key]? = none ∧ { r with infos := r.infos.insert key info } = after := by
  unfold declare isDeclared
  rw [Std.ExtTreeMap.contains_eq_isSome_getElem?]
  cases r.infos[key]? with
  | none => simp
  | some found => simp

theorem declare_of_new {r : Registry} {key : String} (new : r.infos[key]? = none) (info : KeyInfo) :
    r.declare key info = .ok { r with infos := r.infos.insert key info } :=
  declare_eq_ok.mpr ⟨new, rfl⟩

theorem declare_of_known {r : Registry} {key : String} {known : KeyInfo}
    (h : r.infos[key]? = some known) (info : KeyInfo) :
    r.declare key info = .error (.duplicateKey key) := by
  rw [declare, isDeclared, Std.ExtTreeMap.contains_eq_isSome_getElem?, h]
  rfl

theorem enter_infos (r : Registry) (entry : Entry) (key : String) :
    (r.enter entry).infos[key]? = r.infos[key]?.or (entry.info? key) := by
  cases entry with
  | reconfigure update => exact Option.or_none.symm
  | declare other info =>
    rw [enter, Entry.info?]
    cases hother : r.infos[other]? with
    | some known =>
      -- A second declaration changes nothing, and the first one goes before it.
      rw [declare_of_known hother]
      by_cases hkey : other = key
      · rw [if_pos hkey, ← hkey, hother]
        exact hother
      · rw [if_neg hkey, Option.or_none]
        rfl
    | none =>
      rw [declare_of_new hother]
      refine (Lookup.getElem?_insert r.infos other info key).trans ?_
      by_cases hkey : other = key
      · rw [if_pos hkey.symm, if_pos hkey, ← hkey, hother, Option.none_or]
      · rw [if_neg (Ne.symm hkey), if_neg hkey, Option.or_none]

theorem mem_changes {r : Registry} {update : Config} {key text : String} :
    (key, text) ∈ r.changes update ↔
      update.get? key = some text ∧ r.isTunable key = true ∧ r.values.get? key ≠ some text := by
  simp [changes, Config.mem_toList]

/-- An update sets the tunable keys that it has, and no others. -/
theorem get?_reconfigure (r : Registry) (update : Config) (key : String) :
    (r.reconfigure update).2.values.get? key =
      (if r.isTunable key then update.get? key else none).or (r.values.get? key) := by
  have hchanges : (r.reconfigure update).2.values =
      (r.changes update).foldl (fun c pair => c.set pair.1 pair.2) r.values := rfl
  rw [hchanges, Config.get?_foldl_set]
  cases hstored : Config.stored? Prod.fst (r.changes update) key with
  | some change =>
    obtain ⟨hmem, rfl⟩ := Config.of_stored? hstored
    obtain ⟨htext, htunable, -⟩ := mem_changes.mp hmem
    rw [if_pos htunable, htext]
    rfl
  | none =>
    -- The key is left alone: it is not tunable, not in the update, or has that text already.
    by_cases htunable : r.isTunable key = true
    · rw [if_pos htunable]
      cases htext : update.get? key with
      | none => rfl
      | some text =>
        have hsame : r.values.get? key = some text := by
          apply Decidable.not_not.mp
          intro hother
          have hmem := mem_changes.mpr ⟨htext, htunable, hother⟩
          exact List.find?_eq_none.mp hstored _ (List.mem_reverse.mpr hmem) (decide_eq_true rfl)
        rw [hsame]
        rfl
    · rw [if_neg htunable]
      rfl

theorem enter_values (r : Registry) (entry : Entry) (key : String) :
    (r.enter entry).values.get? key =
      (if r.isTunable key then entry.text? key else none).or (r.values.get? key) := by
  cases entry with
  | reconfigure update => exact r.get?_reconfigure update key
  | declare other info =>
    have hvalues : (r.enter (.declare other info)).values = r.values := by
      rw [enter]
      cases hother : r.infos[other]? with
      | some known => rw [declare_of_known hother]; rfl
      | none => rw [declare_of_new hother]; rfl
    rw [hvalues, Entry.text?, ite_self, Option.none_or]

/-! ## A whole history -/

theorem after_append (r : Registry) (history more : List Entry) :
    r.after (history ++ more) = (r.after history).after more :=
  List.foldl_append

theorem infoIn?_append (key : String) (history more : List Entry) :
    infoIn? key (history ++ more) = (infoIn? key history).or (infoIn? key more) :=
  List.findSome?_append

theorem infoIn?_singleton (key : String) (entry : Entry) :
    infoIn? key [entry] = entry.info? key := by
  rw [infoIn?, List.findSome?_singleton]

theorem textsIn_append (key : String) (history more : List Entry) :
    textsIn key (history ++ more) =
      match infoIn? key history with
      | some info =>
        textsIn key history ++ if info.tunable then more.filterMap (Entry.text? key) else []
      | none => textsIn key more := by
  induction history with
  | nil => rfl
  | cons entry rest ih =>
    cases entry with
    | reconfigure update => exact ih
    | declare other info =>
      -- From the first declaration of the key on, all texts count or none.
      rw [List.cons_append, textsIn, textsIn]
      by_cases hkey : other = key
      · have hinfo : infoIn? key (.declare other info :: rest) = some info := by
          rw [infoIn?, List.findSome?_cons, Entry.info?, if_pos hkey]
        rw [if_pos hkey, if_pos hkey, hinfo, List.filterMap_append]
        by_cases tunable : info.tunable = true <;> simp [tunable]
      · have hinfo : infoIn? key (.declare other info :: rest) = infoIn? key rest := by
          rw [infoIn?, List.findSome?_cons, Entry.info?, if_neg hkey]
          rfl
        rw [if_neg hkey, if_neg hkey, hinfo]
        exact ih

theorem textsIn_of_none {key : String} {history : List Entry} (h : infoIn? key history = none) :
    textsIn key history = [] := by
  have happend := textsIn_append key history []
  rw [List.append_nil, h] at happend
  exact happend

/-- How far a registry has followed its history. -/
structure Follows (r : Registry) (config : Config) (history : List Entry) : Prop where
  infos (key : String) : r.infos[key]? = infoIn? key history
  values (key : String) : r.values.get? key = textIn? config key history

theorem Follows.isTunable {r : Registry} {config : Config} {history : List Entry}
    (h : r.Follows config history) (key : String) :
    r.isTunable key = ((infoIn? key history).map KeyInfo.tunable).getD false := by
  rw [Registry.isTunable, h.infos]
  cases infoIn? key history <;> rfl

theorem follows_ofConfig (config : Config) : (ofConfig config).Follows config [] where
  infos _ := Std.ExtTreeMap.getElem?_empty
  values _ := rfl

theorem Follows.enter {r : Registry} {config : Config} {history : List Entry}
    (h : r.Follows config history) (entry : Entry) :
    (r.enter entry).Follows config (history ++ [entry]) where
  infos key := by
    rw [enter_infos, h.infos, infoIn?_append, infoIn?_singleton]
  values key := by
    rw [enter_values, h.values, h.isTunable, textIn?, textIn?, textsIn_append, ← Option.or_assoc]
    congr 1
    cases hinfo : infoIn? key history with
    | none =>
      -- The key is declared by this entry at the earliest, and a declaration gives no text.
      rw [textsIn_of_none hinfo]
      cases entry with
      | reconfigure update => rfl
      | declare other info => simp [textsIn]
    | some info =>
      by_cases tunable : info.tunable = true
      · cases htext : entry.text? key <;> simp [tunable, htext]
      · simp [tunable]

theorem follows_after (config : Config) (history : List Entry) :
    ((ofConfig config).after history).Follows config history := by
  -- From the end: each entry meets the registry that those before it have left.
  induction history using List.reverseRecOn with
  | nil => exact follows_ofConfig config
  | append_singleton history entry ih =>
    rw [after_append]
    exact ih.enter entry

theorem declare_isOk (config : Config) (before : List Entry) (key : String) (info : KeyInfo) :
    (((ofConfig config).after before).declare key info).isOk = true ↔ infoIn? key before = none := by
  have hinfos := (follows_after config before).infos key
  cases hknown : infoIn? key before with
  | none =>
    rw [declare_of_new (hinfos.trans hknown)]
    exact ⟨fun _ => rfl, fun _ => rfl⟩
  | some known =>
    rw [declare_of_known (hinfos.trans hknown)]
    exact ⟨nofun, nofun⟩

theorem succeeded_iff (config : Config) (key : String) (history : List Entry) :
    Succeeded config key history ↔ infoIn? key history ≠ none := by
  constructor
  · rintro ⟨before, info, rest, rfl, -⟩ hnone
    rw [infoIn?, List.findSome?_eq_none_iff] at hnone
    have hdeclare := hnone (.declare key info) (List.mem_append_right _ List.mem_cons_self)
    rw [Entry.info?, if_pos rfl] at hdeclare
    exact Option.some_ne_none info hdeclare
  · intro hknown
    obtain ⟨info, hinfo⟩ := Option.ne_none_iff_exists'.mp hknown
    -- The first entry that declares the key is the one that succeeds.
    obtain ⟨before, entry, rest, rfl, hentry, hbefore⟩ := List.findSome?_eq_some_iff.mp hinfo
    cases entry with
    | reconfigure update => exact absurd hentry.symm (Option.some_ne_none info)
    | declare other found =>
      rw [Entry.info?] at hentry
      obtain ⟨rfl, rfl⟩ : other = key ∧ found = info := by
        split at hentry
        · rename_i hkey
          exact ⟨hkey, Option.some.inj hentry⟩
        · exact absurd hentry.symm (Option.some_ne_none info)
      have hnew : infoIn? other before = none := by
        rw [infoIn?, List.findSome?_eq_none_iff]
        exact hbefore
      exact ⟨before, found, rest, rfl, (declare_isOk config before other found).mpr hnew⟩

theorem Follows.raw_eq {r : Registry} {config : Config} {history : List Entry}
    (h : r.Follows config history) (key : String) :
    r.raw key =
      match infoIn? key history with
      | some info => .ok ((textIn? config key history).getD info.default)
      | none => .error (.unknownKey key) := by
  cases hknown : infoIn? key history <;> simp only [Registry.raw, h.infos, h.values, hknown]

theorem raw_without (config : Config) (before : List Entry) (update : Config) (rest : List Entry)
    {key : String} (untunable : ((ofConfig config).after before).isTunable key = false) :
    ((ofConfig config).after (before ++ rest)).raw key =
      ((ofConfig config).after (before ++ .reconfigure update :: rest)).raw key := by
  have hinfos : infoIn? key (before ++ .reconfigure update :: rest) =
      infoIn? key (before ++ rest) := by
    rw [infoIn?_append, infoIn?_append]
    rfl
  have htexts : textsIn key (before ++ .reconfigure update :: rest) =
      textsIn key (before ++ rest) := by
    rw [(follows_after config before).isTunable] at untunable
    rw [textsIn_append, textsIn_append]
    -- The update comes before all declarations of the key, or after one that does not let it be tuned.
    cases hknown : infoIn? key before with
    | none => rfl
    | some info =>
      rw [hknown, Option.map_some, Option.getD_some] at untunable
      simp only [untunable, Bool.false_eq_true, if_false]
  rw [(follows_after config _).raw_eq, (follows_after config _).raw_eq, textIn?, textIn?, hinfos,
    htexts]

theorem tells_after (config : Config) (history : List Entry) :
    ((ofConfig config).after history).Tells config history where
  unknown key := by
    rw [(follows_after config history).raw_eq, succeeded_iff]
    cases infoIn? key history <;> simp
  raw hinfo := by
    rw [(follows_after config history).raw_eq, hinfo]
  first _ := declare_isOk config _ _ _
  again other hinfo := by
    have hdeclare := declare_of_known (((follows_after config history).infos _).trans hinfo) other
    refine ⟨hdeclare, ?_⟩
    rw [enter, hdeclare]
    rfl
  idle hhistory untunable := by
    rw [hhistory]
    exact raw_without config _ _ _ untunable
  undeclared hinfo := by
    rw [(follows_after config history).values, textIn?, textsIn_of_none hinfo]
    rfl

end Registry

end Dataflow
