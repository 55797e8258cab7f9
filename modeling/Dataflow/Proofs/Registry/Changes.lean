import Dataflow.Proofs.Registry.Kept

/-!
# What a reconfiguration reports

A reconfiguration reports the keys whose configured text it changes, in their order and each once.
That is not the same as the keys whose value changes, as `Registry.raw` reads it: a key without a
configured text has its default for value, and an update that spells this default out is reported
although the value stays. Only the stored configuration has changed then: the key has come into it.
-/

namespace Dataflow

namespace Registry

theorem changed_pairwise (r : Registry) (update : Config) :
    (r.reconfigure update).1.Pairwise (· < ·) := by
  show ((r.changes update).map Prod.fst).Pairwise (· < ·)
  -- The changes are some of the pairs of the update, in their order.
  exact List.pairwise_map.mpr (update.pairwise_toList.filter _)

theorem mem_changed {r : Registry} {update : Config} {key : String} :
    key ∈ (r.reconfigure update).1 ↔
      r.isTunable key = true ∧
        ∃ text, update.get? key = some text ∧ r.values.get? key ≠ some text := by
  show key ∈ (r.changes update).map Prod.fst ↔ _
  simp only [List.mem_map, Prod.exists, mem_changes]
  constructor
  · rintro ⟨_, text, ⟨htext, htunable, hnew⟩, rfl⟩
    exact ⟨htunable, text, htext, hnew⟩
  · rintro ⟨htunable, text, htext, hnew⟩
    exact ⟨key, text, ⟨htext, htunable, hnew⟩, rfl⟩

theorem mem_changed_iff_ne {r : Registry} {update : Config} {key : String} :
    key ∈ (r.reconfigure update).1 ↔
      (r.reconfigure update).2.values.get? key ≠ r.values.get? key := by
  rw [mem_changed, get?_reconfigure]
  by_cases htunable : r.isTunable key = true
  · rw [if_pos htunable]
    cases htext : update.get? key with
    | none => simp
    | some text => simp [htunable, eq_comm]
  · simp [htunable]

/-- Only a key without a configured text can be reported and keep its value all the same. -/
theorem raw_reconfigure_eq {r : Registry} {update : Config} {key : String}
    (h : key ∈ (r.reconfigure update).1) :
    (r.reconfigure update).2.raw key = r.raw key ↔
      r.values.get? key = none ∧ ∃ info, r.info key = .ok info ∧
        update.get? key = some info.default := by
  obtain ⟨htunable, text, htext, hnew⟩ := mem_changed.mp h
  have hinfos : (r.reconfigure update).2.infos = r.infos := rfl
  have hafter : (r.reconfigure update).2.values.get? key = some text := by
    rw [get?_reconfigure, if_pos htunable, htext, Option.some_or]
  rw [raw, raw, info, hinfos, hafter, htext]
  -- A key that is tunable is declared.
  cases hinfo : r.infos[key]? with
  | none =>
    rw [isTunable, hinfo] at htunable
    cases htunable
  | some info =>
    cases hbefore : r.values.get? key with
    | none => simp
    | some before =>
      have hne : text ≠ before := by
        rintro rfl
        exact hnew hbefore
      simp [hne]

theorem raw_reconfigure_of_unreported {r : Registry} {update : Config} {key : String}
    (h : key ∉ (r.reconfigure update).1) : (r.reconfigure update).2.raw key = r.raw key := by
  have hvalues := Decidable.not_not.mp (mt mem_changed_iff_ne.mpr h)
  have hinfos : (r.reconfigure update).2.infos = r.infos := rfl
  rw [raw, raw, hinfos, hvalues]

theorem reconfigure_again (r : Registry) (update : Config) :
    (r.reconfigure update).2.reconfigure update = ([], (r.reconfigure update).2) := by
  have hnone : (r.reconfigure update).2.changes update = [] := by
    rw [List.eq_nil_iff_forall_not_mem]
    rintro ⟨key, text⟩ hchange
    obtain ⟨htext, htunable, hnew⟩ := mem_changes.mp hchange
    -- What is tunable is the same as before, and has got this very text.
    have hsame : r.isTunable key = true := htunable
    rw [get?_reconfigure, if_pos hsame, htext, Option.some_or] at hnew
    exact hnew rfl
  rw [reconfigure, hnone]
  rfl

/-- A reconfiguration reports, in their order and each once, the keys whose configured text changes:
the tunable keys that the update gives another text than the configured one. Every key whose value
changes is among them, and a key is reported with the value it had just if it has no configured text
and the update spells its default out. The same update reports nothing a second time, and changes
nothing. -/
theorem reconfigure_reports (r : Registry) (update : Config) :
    let changed := (r.reconfigure update).1
    let after := (r.reconfigure update).2
    changed.Pairwise (· < ·) ∧ changed.Nodup ∧
      (∀ key, key ∈ changed ↔ r.isTunable key = true ∧
        ∃ text, update.get? key = some text ∧ r.values.get? key ≠ some text) ∧
      (∀ key, key ∈ changed ↔ after.values.get? key ≠ r.values.get? key) ∧
      (∀ key, after.raw key ≠ r.raw key ↔
        key ∈ changed ∧ ¬ (r.values.get? key = none ∧
          ∃ info, r.info key = .ok info ∧ update.get? key = some info.default)) ∧
      after.reconfigure update = ([], after) := by
  intro changed after
  have hsorted : changed.Pairwise (· < ·) := r.changed_pairwise update
  have hnodup : changed.Nodup := by
    refine hsorted.imp fun hlt heq => ?_
    exact String.lt_irrefl _ (heq ▸ hlt)
  refine ⟨hsorted, hnodup, fun key => mem_changed, fun key => mem_changed_iff_ne, fun key => ?_,
    r.reconfigure_again update⟩
  by_cases hkey : key ∈ changed
  · rw [ne_eq, raw_reconfigure_eq hkey]
    exact (and_iff_right hkey).symm
  · exact ⟨fun hne => absurd (raw_reconfigure_of_unreported hkey) hne, fun h => absurd h.1 hkey⟩

/-- One tunable key, with nothing configured. -/
def unset : Registry :=
  ((ofConfig .empty).enter (.declare "gain" ⟨"1.5", "Output gain", true⟩))

/-- A key is reported although its value stays: the update spells its default out. -/
theorem reported_unchanged :
    unset.raw "gain" = .ok "1.5" ∧
      (unset.reconfigure (Config.empty.set "gain" "1.5")).1 = ["gain"] ∧
      (unset.reconfigure (Config.empty.set "gain" "1.5")).2.raw "gain" = .ok "1.5" := by
  decide +kernel

end Registry

end Dataflow
