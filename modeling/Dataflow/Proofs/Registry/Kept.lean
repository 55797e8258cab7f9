import Dataflow.Proofs.Registry.History

/-!
# What a registry keeps

A declaration adds a key and changes no other, and a reconfiguration changes texts of tunable keys
only. So a key stays as it was declared, and with its text unless it is tunable.
-/

namespace Dataflow

namespace Registry

/-- Whether what is declared stays as it is, and only texts of tunable keys are changed. -/
structure Kept (r after : Registry) : Prop where
  infos : ∀ {key : String} {info : KeyInfo}, r.infos[key]? = some info →
    after.infos[key]? = some info
  texts : ∀ {key : String} {info : KeyInfo}, r.infos[key]? = some info → info.tunable = false →
    after.values.get? key = r.values.get? key

theorem Kept.refl (r : Registry) : r.Kept r := ⟨id, fun _ _ => rfl⟩

theorem Kept.trans {r mid after : Registry} (h : r.Kept mid) (h' : mid.Kept after) :
    r.Kept after where
  infos hkey := h'.infos (h.infos hkey)
  texts hkey fixed := (h'.texts (h.infos hkey) fixed).trans (h.texts hkey fixed)

/-- What an entry makes of a registry keeps what was declared, and the texts that are fixed. -/
theorem enter_kept (r : Registry) (entry : Entry) : r.Kept (r.enter entry) where
  infos hkey := by
    rw [enter_infos, hkey, Option.some_or]
  texts {key info} hkey fixed := by
    have untunable : r.isTunable key = false := by
      rw [isTunable, hkey]
      exact fixed
    rw [enter_values, untunable]
    exact Option.none_or

theorem declare_kept {r after : Registry} {key : String} {info : KeyInfo}
    (h : r.declare key info = .ok after) : r.Kept after := by
  have henter : r.enter (.declare key info) = after := by
    rw [enter, h]
    rfl
  exact henter ▸ r.enter_kept (.declare key info)

theorem reconfigure_kept (r : Registry) (update : Config) : r.Kept (r.reconfigure update).2 :=
  r.enter_kept (.reconfigure update)

theorem info_eq_ok {r : Registry} {key : String} {info : KeyInfo} :
    r.info key = .ok info ↔ r.infos[key]? = some info := by
  rw [Registry.info]
  cases r.infos[key]? with
  | none => simp
  | some found => simp

theorem isDeclared_iff {r : Registry} {key : String} :
    r.isDeclared key = true ↔ ∃ info, r.info key = .ok info := by
  rw [isDeclared, Std.ExtTreeMap.contains_eq_isSome_getElem?, Option.isSome_iff_exists]
  exact exists_congr fun _ => info_eq_ok.symm

theorem Kept.info {r after : Registry} (h : r.Kept after) {key : String} {info : KeyInfo}
    (hkey : r.info key = .ok info) : after.info key = .ok info :=
  info_eq_ok.mpr (h.infos (info_eq_ok.mp hkey))

theorem Kept.isDeclared {r after : Registry} (h : r.Kept after) {key : String}
    (declared : r.isDeclared key = true) : after.isDeclared key = true := by
  obtain ⟨info, hkey⟩ := isDeclared_iff.mp declared
  exact isDeclared_iff.mpr ⟨info, h.info hkey⟩

theorem Kept.raw {r after : Registry} (h : r.Kept after) {key : String} {info : KeyInfo}
    (hkey : r.info key = .ok info) (fixed : info.tunable = false) : after.raw key = r.raw key := by
  have hbefore := info_eq_ok.mp hkey
  have hafter := h.infos hbefore
  have htext := h.texts hbefore fixed
  rw [Registry.raw, Registry.raw, hbefore, hafter]
  dsimp only
  rw [htext]

end Registry

end Dataflow
