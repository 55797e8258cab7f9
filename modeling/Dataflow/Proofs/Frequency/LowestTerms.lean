import Mathlib.Data.Nat.GCD.Basic
import Mathlib.Tactic.Ring
import Dataflow.Frequency

/-!
# Frequencies in lowest terms

A fraction is a frequency just if it is in lowest terms a whole number or the reciprocal of one. The
frequency is then the fraction in lowest terms, and a number has no more than one such form, so that
two fractions give one frequency just if they are the same number.

Words stand in for numbers here. That nothing is lost by it is said by a second definition, in which
each operation has no result when its divisor is zero or its result is too large for a word.
-/

namespace Dataflow.Frequency

/-! ## Words as numbers -/

/-- The word that holds a number, if there is one. -/
def word? (n : Nat) : Option UInt32 := if n < UInt32.size then some (.ofNat n) else none

/-- The quotient of two words, if there is one that a word holds. -/
def quotient? (a b : UInt32) : Option UInt32 := if b = 0 then none else word? (a.toNat / b.toNat)

/-- The remainder of two words, if there is one that a word holds. -/
def remainder? (a b : UInt32) : Option UInt32 := if b = 0 then none else word? (a.toNat % b.toNat)

theorem toNat_pos {a : UInt32} (h : a ≠ 0) : 0 < a.toNat :=
  Nat.pos_of_ne_zero fun h0 => h (UInt32.toNat_inj.mp h0)

theorem word?_toNat (a : UInt32) : word? a.toNat = some a := by
  rw [word?, if_pos a.toNat_lt, UInt32.ofNat_toNat]

theorem quotient?_eq {b : UInt32} (h : b ≠ 0) (a : UInt32) : quotient? a b = some (a / b) := by
  rw [quotient?, if_neg h, ← UInt32.toNat_div, word?_toNat]

theorem remainder?_eq {b : UInt32} (h : b ≠ 0) (a : UInt32) : remainder? a b = some (a % b) := by
  rw [remainder?, if_neg h, ← UInt32.toNat_mod, word?_toNat]

theorem remainder?_lt {a b r : UInt32} (h : remainder? a b = some r) : r.toNat < b.toNat := by
  have hb : b ≠ 0 := by
    rintro rfl
    exact nomatch h
  rw [remainder?_eq hb] at h
  rw [← Option.some.inj h, UInt32.toNat_mod]
  exact Nat.mod_lt _ (toNat_pos hb)

/-- The greatest common divisor, if no remainder on the way is without result. -/
def gcd? (a b : UInt32) : Option UInt32 :=
  if b = 0 then some a
  else (remainder? a b).pbind fun r _hr => gcd? b r
termination_by b.toNat
decreasing_by exact remainder?_lt _hr

theorem gcd?_eq (a b : UInt32) : gcd? a b = some (gcd a b) := by
  induction a, b using gcd.induct with
  | case1 a => rw [gcd?, gcd, if_pos rfl, if_pos rfl]
  | case2 a b hb ih =>
    rw [gcd?, gcd, if_neg hb, if_neg hb, Option.pbind_eq_bind, remainder?_eq hb]
    exact ih

/-- The fraction `num / den` in lowest terms, if no operation on the way is without result. -/
def ofRatio? (num den : UInt32) : Option (Except Fault Frequency) :=
  if den = 0 then some (.error (.fraction num den))
  else if num = 0 then some (.ok unconstrained)
  else do
    let divisor ← gcd? num den
    let n ← quotient? num divisor
    let d ← quotient? den divisor
    if h : n = 1 ∨ d = 1 then return .ok ⟨n, d, h⟩
    else return .error (.fraction num den)

theorem gcd_ne_zero {num den : UInt32} (h : den ≠ 0) : gcd num den ≠ 0 := by
  intro hzero
  have hgcd := congrArg UInt32.toNat hzero
  rw [toNat_gcd] at hgcd
  exact h (UInt32.toNat_inj.mp (Nat.eq_zero_of_gcd_eq_zero_right hgcd))

/-- No operation is without result. -/
theorem ofRatio?_eq (num den : UInt32) : ofRatio? num den = some (ofRatio num den) := by
  rw [ofRatio?, ofRatio]
  split
  · rfl
  · rename_i hden
    split
    · rfl
    · rw [gcd?_eq]
      simp only [Option.bind_eq_bind, Option.bind_some, quotient?_eq (gcd_ne_zero hden)]
      split <;> rfl

/-! ## Lowest terms -/

/-- A number is one in lowest terms just if it divides the other. -/
theorem div_gcd_eq_one {a b : Nat} (h : a ≠ 0) : a / Nat.gcd a b = 1 ↔ a ∣ b := by
  rw [Nat.div_eq_iff_eq_mul_left (Nat.gcd_pos_of_pos_left b (Nat.pos_of_ne_zero h))
    (Nat.gcd_dvd_left a b), one_mul, eq_comm, Nat.gcd_eq_left_iff_dvd]

/-- One side of a fraction is one in lowest terms just if it divides the other side. -/
theorem simple_iff {num den : UInt32} (hnum : num ≠ 0) (hden : den ≠ 0) :
    (num / gcd num den = 1 ∨ den / gcd num den = 1) ↔
      num.toNat ∣ den.toNat ∨ den.toNat ∣ num.toNat := by
  rw [← UInt32.toNat_inj, ← UInt32.toNat_inj, UInt32.toNat_div, UInt32.toNat_div, toNat_gcd]
  refine or_congr (div_gcd_eq_one (toNat_pos hnum).ne') ?_
  rw [Nat.gcd_comm]
  exact div_gcd_eq_one (toNat_pos hden).ne'

theorem ofRatio_eq_error_iff {num den : UInt32} {fault : Fault} :
    ofRatio num den = .error fault ↔ fault = .fraction num den ∧
      (den = 0 ∨ num ≠ 0 ∧ ¬ num.toNat ∣ den.toNat ∧ ¬ den.toNat ∣ num.toNat) := by
  rw [ofRatio]
  split
  · rename_i hden
    rw [Except.error.injEq, eq_comm]
    exact (and_iff_left (.inl hden)).symm
  · rename_i hden
    rw [or_iff_right hden]
    split
    · rename_i hnum
      exact iff_of_false nofun fun h => h.2.1 hnum
    · rename_i hnum
      dsimp only
      split
      · rename_i hsimple
        refine iff_of_false nofun fun h => ?_
        exact ((simple_iff hnum hden).mp hsimple).elim h.2.2.1 h.2.2.2
      · rename_i hsimple
        rw [Except.error.injEq, eq_comm]
        refine (and_iff_left ⟨hnum, ?_⟩).symm
        rwa [simple_iff hnum hden, not_or] at hsimple

/-- Of an accepted fraction the lowest terms are kept. -/
theorem reduced_of_ofRatio {num den : UInt32} {f : Frequency} (h : ofRatio num den = .ok f) :
    den ≠ 0 ∧ f.num.toNat = num.toNat / Nat.gcd num.toNat den.toNat ∧
      f.den.toNat = den.toNat / Nat.gcd num.toNat den.toNat := by
  rw [ofRatio] at h
  split at h
  · exact nomatch h
  · rename_i hden
    refine ⟨hden, ?_⟩
    split at h
    · rename_i hnum
      rw [← Except.ok.inj h, hnum, UInt32.toNat_zero, Nat.gcd_zero_left,
        Nat.div_self (toNat_pos hden), Nat.zero_div]
      exact ⟨rfl, rfl⟩
    · dsimp only at h
      split at h
      · rw [← Except.ok.inj h, ← toNat_gcd, ← UInt32.toNat_div, ← UInt32.toNat_div]
        exact ⟨rfl, rfl⟩
      · exact nomatch h

/-- Whether a frequency is the fraction `num / den` in lowest terms. -/
structure Denotes (f : Frequency) (num den : UInt32) : Prop where
  den_ne_zero : den ≠ 0
  same : f.num.toNat * den.toNat = num.toNat * f.den.toNat
  coprime : Nat.Coprime f.num.toNat f.den.toNat

theorem denotes_of_ofRatio {num den : UInt32} {f : Frequency} (h : ofRatio num den = .ok f) :
    f.Denotes num den := by
  obtain ⟨hden, hn, hd⟩ := reduced_of_ofRatio h
  refine ⟨hden, ?_, ?_⟩
  · rw [hn, hd]
    generalize hg : Nat.gcd num.toNat den.toNat = g
    have hleft : g ∣ num.toNat := hg ▸ Nat.gcd_dvd_left ..
    have hright : g ∣ den.toNat := hg ▸ Nat.gcd_dvd_right ..
    calc num.toNat / g * den.toNat
      _ = num.toNat / g * (g * (den.toNat / g)) := by rw [Nat.mul_div_cancel' hright]
      _ = num.toNat / g * g * (den.toNat / g) := (Nat.mul_assoc ..).symm
      _ = num.toNat * (den.toNat / g) := by rw [Nat.div_mul_cancel hleft]
  · rw [hn, hd]
    exact Nat.coprime_div_gcd_div_gcd (Nat.gcd_pos_of_pos_right _ (toNat_pos hden))

theorem denotes_integral (n : UInt32) : (integral n).Denotes n 1 :=
  ⟨by decide, rfl, Nat.coprime_one_right _⟩

namespace Denotes

variable {f f' : Frequency} {num den num' den' : UInt32}

theorem pos (h : f.Denotes num den) : 0 < den.toNat := toNat_pos h.den_ne_zero

theorem den_pos (h : f.Denotes num den) : 0 < f.den.toNat := by
  apply Nat.pos_of_ne_zero
  intro hden
  -- With the denominator, the numerator would be zero too, and 0 / 0 is not in lowest terms.
  have hprod : f.num.toNat * den.toNat = 0 := by rw [h.same, hden, Nat.mul_zero]
  have hnum : f.num.toNat = 0 := (Nat.mul_eq_zero.mp hprod).resolve_right h.pos.ne'
  have hcoprime := h.coprime
  rw [hnum, hden] at hcoprime
  exact absurd hcoprime (by decide)

/-- A number has one form in lowest terms. -/
theorem eq_of_same (h : f.Denotes num den) (h' : f'.Denotes num' den')
    (same : num.toNat * den'.toNat = num'.toNat * den.toNat) : f = f' := by
  have hcross : f.num.toNat * f'.den.toNat = f'.num.toNat * f.den.toNat := by
    apply Nat.eq_of_mul_eq_mul_right (Nat.mul_pos h.pos h'.pos)
    calc f.num.toNat * f'.den.toNat * (den.toNat * den'.toNat)
      _ = f.num.toNat * den.toNat * (f'.den.toNat * den'.toNat) := by ring
      _ = num.toNat * f.den.toNat * (f'.den.toNat * den'.toNat) := by rw [h.same]
      _ = num.toNat * den'.toNat * (f.den.toNat * f'.den.toNat) := by ring
      _ = num'.toNat * den.toNat * (f.den.toNat * f'.den.toNat) := by rw [same]
      _ = num'.toNat * f'.den.toNat * (f.den.toNat * den.toNat) := by ring
      _ = f'.num.toNat * den'.toNat * (f.den.toNat * den.toNat) := by rw [h'.same]
      _ = f'.num.toNat * f.den.toNat * (den.toNat * den'.toNat) := by ring
  have hnum : f.num.toNat = f'.num.toNat := Nat.dvd_antisymm
    (h.coprime.dvd_of_dvd_mul_right ⟨_, hcross.symm⟩)
    (h'.coprime.dvd_of_dvd_mul_right ⟨_, hcross⟩)
  have hden : f.den.toNat = f'.den.toNat := Nat.dvd_antisymm
    (h.coprime.symm.dvd_of_dvd_mul_left ⟨f'.num.toNat, by rw [hcross, Nat.mul_comm]⟩)
    (h'.coprime.symm.dvd_of_dvd_mul_left ⟨f.num.toNat, by rw [← hcross, Nat.mul_comm]⟩)
  obtain ⟨n, d, hsimple⟩ := f
  obtain ⟨n', d', hsimple'⟩ := f'
  obtain rfl : n = n' := UInt32.toNat_inj.mp hnum
  obtain rfl : d = d' := UInt32.toNat_inj.mp hden
  rfl

theorem eq_iff (h : f.Denotes num den) (h' : f'.Denotes num' den') :
    f = f' ↔ num.toNat * den'.toNat = num'.toNat * den.toNat := by
  refine ⟨?_, h.eq_of_same h'⟩
  rintro rfl
  apply Nat.eq_of_mul_eq_mul_right h.den_pos
  calc num.toNat * den'.toNat * f.den.toNat
    _ = num.toNat * f.den.toNat * den'.toNat := by ring
    _ = f.num.toNat * den.toNat * den'.toNat := by rw [h.same]
    _ = f.num.toNat * den'.toNat * den.toNat := by ring
    _ = num'.toNat * f.den.toNat * den.toNat := by rw [h'.same]
    _ = num'.toNat * den.toNat * f.den.toNat := by ring

theorem eq_unconstrained_iff (h : f.Denotes num den) : num = 0 ↔ f = unconstrained := by
  rw [unconstrained, h.eq_iff (denotes_integral 0), ← UInt32.toNat_inj]
  simp

/-- A positive whole number is the number of datums that a step takes. -/
theorem tokensPerStep_of_whole (h : f.Denotes num den) {n : Nat} (hn : 0 < n)
    (whole : num.toNat = n * den.toNat) : f.tokensPerStep = n := by
  have hnum : f.num.toNat = n * f.den.toNat := by
    apply Nat.eq_of_mul_eq_mul_right h.pos
    rw [h.same, whole]
    ring
  have hden : f.den.toNat = 1 :=
    Nat.Coprime.eq_one_of_dvd h.coprime.symm ⟨n, by rw [hnum, Nat.mul_comm]⟩
  rw [hden, Nat.mul_one] at hnum
  have hwhole : f.den = 1 ∧ 0 < f.num :=
    ⟨UInt32.toNat_inj.mp hden, UInt32.lt_iff_toNat_lt.mpr (hnum ▸ hn)⟩
  rw [tokensPerStep, if_pos hwhole, hnum]

theorem tokensPerStep_of_broken (h : f.Denotes num den)
    (broken : ∀ n, 0 < n → num.toNat ≠ n * den.toNat) : f.tokensPerStep = 1 := by
  rw [tokensPerStep, if_neg]
  rintro ⟨hden, hnum⟩
  refine broken f.num.toNat (UInt32.lt_iff_toNat_lt.mp hnum) ?_
  rw [h.same, hden]
  exact (Nat.mul_one _).symm

end Denotes

/-- A frequency as a fraction is that frequency again. -/
theorem Denotes.ofRatio_self {f : Frequency} {num den : UInt32} (h : f.Denotes num den) :
    ofRatio f.num f.den = .ok f := by
  have hden : f.den ≠ 0 := fun hzero => h.den_pos.ne' (congrArg UInt32.toNat hzero)
  cases hratio : ofRatio f.num f.den with
  | error fault =>
    obtain ⟨-, hbad⟩ := ofRatio_eq_error_iff.mp hratio
    obtain ⟨-, hnum, hden'⟩ := hbad.resolve_left hden
    rcases f.isSimple with hone | hone
    · exact absurd (hone ▸ Nat.one_dvd _) hnum
    · exact absurd (hone ▸ Nat.one_dvd _) hden'
  | ok f' =>
    have hself : f.Denotes f.num f.den := ⟨hden, rfl, h.coprime⟩
    rw [(denotes_of_ofRatio hratio).eq_of_same hself rfl]

theorem ofRatio_one (n : UInt32) : ofRatio n 1 = .ok (integral n) :=
  (denotes_integral n).ofRatio_self

/-- The fractions that are frequencies. A fraction is refused just if it has no denominator, or is
not zero and neither side divides the other. An accepted one gives the same number in lowest terms,
a whole number or the reciprocal of one, and zero in one form only; two of them give one frequency
just if they are the same number. A step takes as many datums as the number says if it is positive
and whole, and else one. The whole numbers are the fractions with the denominator one, and no
operation on the way divides by zero or goes beyond a word. -/
theorem ofRatio_lowest_terms (num den : UInt32) :
    (∀ fault, ofRatio num den = .error fault ↔ fault = .fraction num den ∧
        (den = 0 ∨ num ≠ 0 ∧ ¬ num.toNat ∣ den.toNat ∧ ¬ den.toNat ∣ num.toNat)) ∧
      (∀ f, ofRatio num den = .ok f →
        f.Denotes num den ∧ (f.num = 1 ∨ f.den = 1) ∧ (num = 0 ↔ f = unconstrained) ∧
          (∀ n, 0 < n → num.toNat = n * den.toNat → f.tokensPerStep = n) ∧
          ((∀ n, 0 < n → num.toNat ≠ n * den.toNat) → f.tokensPerStep = 1) ∧
          0 < f.tokensPerStep ∧
          ∀ num' den' f', ofRatio num' den' = .ok f' →
            (f = f' ↔ num.toNat * den'.toNat = num'.toNat * den.toNat)) ∧
      (∀ n, ofRatio n 1 = .ok (integral n)) ∧
      ofRatio? num den = some (ofRatio num den) := by
  refine ⟨fun fault => ofRatio_eq_error_iff, fun f hf => ?_, ofRatio_one, ofRatio?_eq num den⟩
  have h := denotes_of_ofRatio hf
  exact ⟨h, f.isSimple, h.eq_unconstrained_iff, fun n hn => h.tokensPerStep_of_whole hn,
    h.tokensPerStep_of_broken, f.tokensPerStep_pos,
    fun num' den' f' hf' => h.eq_iff (denotes_of_ofRatio hf')⟩

end Dataflow.Frequency
