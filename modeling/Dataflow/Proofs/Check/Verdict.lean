import Dataflow.Check

/-!
# Laws of the verdict

The check goes through the heads in their order: it compares all places with the first one that it
finds, and it gathers the statuses from the front. Yet what it comes to depends only on which heads
there are. Heads that come in addition, and a stricter level, make a verdict graver or leave it as
it is.
-/

namespace Dataflow

/-! ## Places and statuses -/

/-- Heads are out of sync if two of them that are there differ in their place. -/
theorem inSync_eq_false_iff (heads : List Head) :
    inSync heads = false ↔
      ∃ one ∈ heads, ∃ other ∈ heads, ∃ stamp stamp', one.stamp? = some stamp ∧
        other.stamp? = some stamp' ∧ stamp ≠ stamp' := by
  have hmem (stamp : Stamp) :
      stamp ∈ heads.filterMap Head.stamp? ↔ ∃ head ∈ heads, head.stamp? = some stamp :=
    List.mem_filterMap
  rw [inSync]
  cases hstamps : heads.filterMap Head.stamp? with
  | nil =>
    simp only [Bool.true_eq_false, false_iff]
    rintro ⟨one, hone, -, -, stamp, -, hstamp, -⟩
    have h := (hmem stamp).mpr ⟨one, hone, hstamp⟩
    rw [hstamps] at h
    exact nomatch h
  | cons first rest =>
    rw [hstamps] at hmem
    obtain ⟨head, hhead, hfirst⟩ := (hmem first).mp List.mem_cons_self
    simp only [List.all_eq_false, beq_iff_eq]
    constructor
    · rintro ⟨stamp, hstamp, hne⟩
      obtain ⟨other, hother, hstamp'⟩ := (hmem stamp).mp (List.mem_cons_of_mem _ hstamp)
      exact ⟨other, hother, head, hhead, stamp, first, hstamp', hfirst, hne⟩
    · rintro ⟨one, hone, other, hother, stamp, stamp', hstamp, hstamp', hne⟩
      -- One of the two differs from the first, and is not the first itself.
      by_cases hsame : stamp = first
      · refine ⟨stamp', ?_, fun h => hne (hsame.trans h.symm)⟩
        refine (List.mem_cons.mp ((hmem stamp').mpr ⟨other, hother, hstamp'⟩)).resolve_left ?_
        exact fun h => hne (hsame.trans h.symm)
      · exact ⟨stamp, (List.mem_cons.mp ((hmem stamp).mpr ⟨one, hone, hstamp⟩)).resolve_left hsame,
          hsame⟩

namespace Status

theorem le_worse_left (a b : Status) : a ≤ worse a b := by
  cases a <;> cases b <;> decide

theorem le_worse_right (a b : Status) : b ≤ worse a b := by
  cases a <;> cases b <;> decide

theorem le_trans {a b c : Status} (h : a ≤ b) (h' : b ≤ c) : a ≤ c :=
  Nat.le_trans (m := b.severity) h h'

theorem worse_eq (a b : Status) : worse a b = a ∨ worse a b = b := by
  rw [worse]
  split
  · exact .inr rfl
  · exact .inl rfl

/-- The gravest of several statuses and a first one. -/
theorem foldl_worse (statuses : List Status) (first : Status) :
    first ≤ statuses.foldl worse first ∧ (∀ status ∈ statuses, status ≤ statuses.foldl worse first) ∧
      (statuses.foldl worse first = first ∨ statuses.foldl worse first ∈ statuses) := by
  induction statuses generalizing first with
  | nil => exact ⟨Nat.le_refl first.severity, fun _ h => absurd h List.not_mem_nil, .inl rfl⟩
  | cons status rest ih =>
    obtain ⟨hfirst, hrest, hreached⟩ := ih (worse first status)
    refine ⟨le_trans (le_worse_left first status) hfirst, ?_, ?_⟩
    · intro other hother
      rcases List.mem_cons.mp hother with rfl | hother
      · exact le_trans (le_worse_right first other) hfirst
      · exact hrest other hother
    · rcases hreached with hreached | hreached
      · rw [List.foldl_cons, hreached]
        rcases worse_eq first status with h | h
        · exact .inl h
        · exact .inr (List.mem_cons.mpr (.inl h))
      · exact .inr (List.mem_cons_of_mem _ hreached)

theorem le_antisymm {a b : Status} (h : a ≤ b) (h' : b ≤ a) : a = b :=
  severity_inj (Nat.le_antisymm h h')

end Status

/-- More heads do not get back into sync. -/
theorem inSync_of_subset {heads more : List Head} (h : heads ⊆ more)
    (apart : inSync heads = false) : inSync more = false := by
  rw [inSync_eq_false_iff] at apart ⊢
  obtain ⟨one, hone, other, hother, hstamps⟩ := apart
  exact ⟨one, h hone, other, h hother, hstamps⟩

theorem status_le_worst {heads : List Head} {head : Head} (h : head ∈ heads) :
    head.status ≤ worstStatus heads :=
  (Status.foldl_worse (heads.map Head.status) .data).2.1 _ (List.mem_map_of_mem h)

theorem worst_reached (heads : List Head) :
    worstStatus heads = .data ∨ ∃ head ∈ heads, head.status = worstStatus heads :=
  (Status.foldl_worse (heads.map Head.status) .data).2.2.imp id List.mem_map.mp

theorem worst_eq {heads : List Head} {status : Status}
    (reached : ∃ head ∈ heads, head.status = status)
    (bound : ∀ head ∈ heads, head.status ≤ status) : worstStatus heads = status := by
  obtain ⟨head, hhead, rfl⟩ := reached
  refine Status.le_antisymm ?_ (status_le_worst hhead)
  rcases worst_reached heads with hdata | ⟨other, hother, hworst⟩
  · rw [hdata]
    exact Nat.zero_le head.status.severity
  · rw [← hworst]
    exact bound other hother

theorem worst_of_subset {heads more : List Head} (h : heads ⊆ more) :
    worstStatus heads ≤ worstStatus more := by
  rcases worst_reached heads with hdata | ⟨head, hhead, hworst⟩
  · rw [hdata]
    exact Nat.zero_le (worstStatus more).severity
  · rw [← hworst]
    exact status_le_worst (h hhead)

/-! ## Verdicts -/

/-- No heads and no check come to the same as heads with which nothing is wrong. -/
theorem verdict_eq (level : CheckLevel) (checkSync : Bool) (heads : List Head) :
    verdict level checkSync heads =
      if level ≠ .none ∧ checkSync = true ∧ inSync heads = false then .desync
      else if level = .valid ∧ worstStatus heads ≠ .data then .propagate (worstStatus heads)
      else .step := by
  rw [verdict]
  by_cases hnone : level = .none
  · rw [if_pos (.inl hnone), if_neg (fun h => h.1 hnone), if_neg]
    rintro ⟨hvalid, -⟩
    exact nomatch hnone.symm.trans hvalid
  · by_cases hnil : heads = []
    · -- Without heads nothing is out of sync, and the gravest status is that of data.
      subst hnil
      rw [if_pos (.inr rfl), if_neg (fun h => nomatch h.2.2), if_neg (fun h => h.2 rfl)]
    · rw [if_neg (not_or.mpr ⟨hnone, hnil⟩)]
      simp only [ne_eq, hnone, not_false_eq_true, true_and]

theorem verdict_eq_desync {level : CheckLevel} {checkSync : Bool} {heads : List Head} :
    verdict level checkSync heads = .desync ↔
      level ≠ .none ∧ checkSync = true ∧ inSync heads = false := by
  rw [verdict_eq]
  split
  · rename_i h
    exact ⟨fun _ => h, fun _ => rfl⟩
  · rename_i h
    refine ⟨fun hverdict => ?_, fun hapart => absurd hapart h⟩
    split at hverdict <;> exact nomatch hverdict

theorem verdict_eq_propagate {level : CheckLevel} {checkSync : Bool} {heads : List Head}
    {status : Status} :
    verdict level checkSync heads = .propagate status ↔
      verdict level checkSync heads ≠ .desync ∧ level = .valid ∧ worstStatus heads ≠ .data ∧
        worstStatus heads = status := by
  rw [ne_eq, verdict_eq_desync, verdict_eq]
  split
  · rename_i h
    exact ⟨nofun, fun hother => absurd h hother.1⟩
  · rename_i h
    split
    · rename_i hfault
      simp only [Verdict.propagate.injEq]
      exact ⟨fun hstatus => ⟨h, hfault.1, hfault.2, hstatus⟩, fun hother => hother.2.2.2⟩
    · rename_i hfault
      exact ⟨nofun, fun hother => absurd ⟨hother.2.1, hother.2.2.1⟩ hfault⟩

namespace Verdict

/-- How grave a verdict is. No status outweighs heads that are out of sync. -/
def gravity : Verdict → Nat
  | step => 0
  | propagate status => status.severity + 1
  | desync => 5

theorem gravity_inj {a b : Verdict} (h : a.gravity = b.gravity) : a = b := by
  cases a with
  | propagate one =>
    cases b with
    | propagate other => exact congrArg propagate (Status.severity_inj (Nat.succ.inj h))
    | step => exact nomatch h
    | desync => cases one <;> exact nomatch h
  | step => cases b <;> first | rfl | exact nomatch h
  | desync =>
    cases b with
    | propagate other => cases other <;> exact nomatch h
    | step => exact nomatch h
    | desync => rfl

theorem gravity_le (v : Verdict) : v.gravity ≤ desync.gravity := by
  cases v with
  | propagate status => cases status <;> decide
  | step | desync => decide

/-- What is no step cannot be outweighed by one. -/
theorem ne_step_of_gravity {a b : Verdict} (h : a.gravity ≤ b.gravity) (ha : a ≠ step) :
    b ≠ step := by
  rintro rfl
  exact ha (gravity_inj (Nat.le_antisymm h (Nat.zero_le _)))

theorem eq_desync_of_gravity {a b : Verdict} (h : a.gravity ≤ b.gravity) (ha : a = desync) :
    b = desync :=
  gravity_inj (Nat.le_antisymm b.gravity_le (ha ▸ h))

theorem of_propagate {status : Status} {b : Verdict} (h : (propagate status).gravity ≤ b.gravity) :
    b = desync ∨ ∃ other, b = propagate other ∧ status ≤ other := by
  cases b with
  | step => exact absurd h (Nat.not_succ_le_zero _)
  | propagate other => exact .inr ⟨other, rfl, Nat.le_of_succ_le_succ h⟩
  | desync => exact .inl rfl

end Verdict

/-- A verdict grows with the level, and with the heads. -/
theorem verdict_mono {level higher : CheckLevel} {checkSync : Bool} {heads more : List Head}
    (hlevel : level ≤ higher) (hheads : heads ⊆ more) :
    (verdict level checkSync heads).gravity ≤ (verdict higher checkSync more).gravity := by
  cases hverdict : verdict level checkSync heads with
  | step => exact Nat.zero_le _
  | desync =>
    obtain ⟨checked, hsync, apart⟩ := verdict_eq_desync.mp hverdict
    have hchecked : higher ≠ .none := by
      rintro rfl
      cases level <;> first | exact checked rfl | exact absurd hlevel (by decide)
    -- The two stamps that differ are still there among more heads.
    have hdesync := verdict_eq_desync.mpr ⟨hchecked, hsync, inSync_of_subset hheads apart⟩
    exact Nat.le_of_eq (congrArg Verdict.gravity hdesync).symm
  | propagate status =>
    obtain ⟨-, rfl, hfault, rfl⟩ := verdict_eq_propagate.mp hverdict
    have hhigher : higher = .valid := by
      cases higher <;> first | rfl | exact absurd hlevel (by decide)
    -- More heads have no milder status, if they are not out of sync altogether.
    have hworse := worst_of_subset hheads
    have hfault' : worstStatus more ≠ .data := by
      intro hdata
      exact hfault (Status.le_antisymm (hdata ▸ hworse) (Nat.zero_le _))
    by_cases hdesync : verdict higher checkSync more = .desync
    · rw [hdesync]
      exact Verdict.gravity_le _
    · rw [verdict_eq_propagate.mpr ⟨hdesync, hhigher, hfault', rfl⟩]
      exact Nat.succ_le_succ hworse

/-- The order of the heads is of no account. A verdict is that of heads out of sync if the level and
the process ask for sync and two heads that are there are at different places, and else, at the
strictest level, it passes on the gravest status, an empty edge counting as empty. A stricter level
turns no fault into a step, and no level hides from another that the heads are out of sync. More
heads leave what is out of sync as it is, and a status gives way only to a graver one. -/
theorem verdict_laws (level : CheckLevel) (checkSync : Bool) (heads : List Head) :
    (∀ others, heads.Perm others →
        verdict level checkSync others = verdict level checkSync heads) ∧
      (verdict level checkSync heads = .desync ↔
        level ≠ .none ∧ checkSync = true ∧
          ∃ one ∈ heads, ∃ other ∈ heads, ∃ stamp stamp', one.stamp? = some stamp ∧
            other.stamp? = some stamp' ∧ stamp ≠ stamp') ∧
      (∀ status, verdict level checkSync heads = .propagate status ↔
        verdict level checkSync heads ≠ .desync ∧ level = .valid ∧ status ≠ .data ∧
          (∃ head ∈ heads, head.status = status) ∧ ∀ head ∈ heads, head.status ≤ status) ∧
      (∀ higher, level ≤ higher → verdict level checkSync heads ≠ .step →
        verdict higher checkSync heads ≠ .step) ∧
      (verdict .sync checkSync heads = .desync ↔ verdict .valid checkSync heads = .desync) ∧
      ∀ more, heads ⊆ more →
        (verdict level checkSync heads = .desync → verdict level checkSync more = .desync) ∧
          ∀ status, verdict level checkSync heads = .propagate status →
            verdict level checkSync more = .desync ∨
              ∃ other, verdict level checkSync more = .propagate other ∧ status ≤ other := by
  have grows {more : List Head} (h : heads ⊆ more) :
      (verdict level checkSync heads).gravity ≤ (verdict level checkSync more).gravity :=
    verdict_mono (Nat.le_refl level.strictness) h
  refine ⟨fun others hperm => ?_, ?_, fun status => ?_, fun higher hlevel => ?_, ?_,
    fun more hmore => ⟨?_, fun status hstatus => ?_⟩⟩
  · -- Each list has all the heads of the other, so that neither verdict is graver.
    have hback : (verdict level checkSync others).gravity ≤ (verdict level checkSync heads).gravity :=
      verdict_mono (Nat.le_refl level.strictness) hperm.symm.subset
    exact Verdict.gravity_inj (Nat.le_antisymm hback (grows hperm.subset))
  · rw [verdict_eq_desync, inSync_eq_false_iff]
  · rw [verdict_eq_propagate]
    constructor
    · rintro ⟨insync, hvalid, hfault, rfl⟩
      exact ⟨insync, hvalid, hfault, (worst_reached heads).resolve_left hfault,
        fun head => status_le_worst⟩
    · rintro ⟨insync, hvalid, hfault, hreached, hbound⟩
      have hworst := worst_eq hreached hbound
      exact ⟨insync, hvalid, hworst ▸ hfault, hworst⟩
  · exact Verdict.ne_step_of_gravity (verdict_mono hlevel (List.Subset.refl heads))
  · rw [verdict_eq_desync, verdict_eq_desync]
    exact and_congr_left fun _ => ⟨fun _ => nofun, fun _ => nofun⟩
  · exact Verdict.eq_desync_of_gravity (grows hmore)
  · have hgrows := grows hmore
    rw [hstatus] at hgrows
    exact Verdict.of_propagate hgrows

/-- An input with data, one with an empty edge, and one whose sender is finished. -/
def unlike : List Head :=
  let token (stamp : Stamp) (datum : Datum) : Option Stamped := some ⟨stamp, datum⟩
  [⟨"left", .one, token 3 (.scalar (.i64 7))⟩, ⟨"middle", .one, none⟩,
    ⟨"right", .one, token 3 .complete⟩]

/-- An input that lags behind. -/
def laggard : Head := ⟨"late", .one, some ⟨2, .scalar (.i64 5)⟩⟩

/-- Three unlike heads have the mark of completion passed on in any order. One more that lags behind
makes the verdict graver. -/
theorem verdict_laws_unlike :
    verdict .valid true unlike = .propagate .complete ∧ unlike.Perm unlike.reverse ∧
      unlike ⊆ laggard :: unlike ∧
      verdict .valid true unlike.reverse = .propagate .complete ∧
      (verdict .valid true (laggard :: unlike) = .desync ∨
        ∃ other, verdict .valid true (laggard :: unlike) = .propagate other ∧ .complete ≤ other) ∧
      verdict .sync true (laggard :: unlike) = .desync ∧
      verdict .valid true (laggard :: unlike) ≠ .step := by
  have hverdict : verdict .valid true unlike = .propagate .complete := by decide
  have hlag : verdict .sync true (laggard :: unlike) = .desync := by decide
  have hperm : unlike.Perm unlike.reverse := (List.reverse_perm unlike).symm
  have hmore : unlike ⊆ laggard :: unlike := List.subset_cons_self laggard unlike
  obtain ⟨horder, -, -, -, -, hgrows⟩ := verdict_laws .valid true unlike
  obtain ⟨-, -, -, hlevels, -, -⟩ := verdict_laws .sync true (laggard :: unlike)
  refine ⟨hverdict, hperm, hmore, (horder _ hperm).trans hverdict,
    (hgrows _ hmore).2 _ hverdict, hlag, hlevels .valid (by decide) ?_⟩
  rw [hlag]
  exact nofun

end Dataflow
