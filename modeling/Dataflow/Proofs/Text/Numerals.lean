import Mathlib.Data.List.TakeWhile
import Dataflow.Text.Blank
import Dataflow.Text.Numeral

/-!
# Numerals as they are written

Reading a numeral goes from left to right and gives up at the first character that does not fit. What
it accepts is said here without reading: one or more digits, behind a plus sign or not, whose value is
within the range. Blanks around such a text are cut off, and nothing else of it.
-/

namespace Dataflow

namespace Text

/-- Cutting takes off blanks, at the two ends. -/
theorem trimBlanks_split (cs : List Char) : ∃ before after,
    cs = before ++ trimBlanks cs ++ after ∧ (∀ c ∈ before, isBlank c = true) ∧
      ∀ c ∈ after, isBlank c = true := by
  refine ⟨cs.takeWhile isBlank, (((cs.dropWhile isBlank).reverse).takeWhile isBlank).reverse, ?_,
    fun c hc => List.mem_takeWhile_imp hc,
    fun c hc => List.mem_takeWhile_imp (List.mem_reverse.mp hc)⟩
  rw [trimBlanks, List.append_assoc, ← List.reverse_append, List.takeWhile_append_dropWhile,
    List.reverse_reverse, List.takeWhile_append_dropWhile]

theorem dropWhile_isBlank {before cs : List Char} (hbefore : ∀ c ∈ before, isBlank c = true)
    (hcs : ∀ c ∈ cs, isBlank c = false) (hne : cs ≠ []) (after : List Char) :
    (before ++ (cs ++ after)).dropWhile isBlank = cs ++ after := by
  obtain ⟨c, rest, rfl⟩ := List.exists_cons_of_ne_nil hne
  rw [List.dropWhile_append_of_pos hbefore]
  exact List.dropWhile_cons_of_neg (by rw [hcs c List.mem_cons_self]; decide)

/-- A text without blanks is all that is left of it among blanks. -/
theorem trimBlanks_eq {before cs after : List Char} (hbefore : ∀ c ∈ before, isBlank c = true)
    (hcs : ∀ c ∈ cs, isBlank c = false) (hne : cs ≠ []) (hafter : ∀ c ∈ after, isBlank c = true) :
    trimBlanks (before ++ cs ++ after) = cs := by
  have hback : (after.reverse ++ (cs.reverse ++ [])).dropWhile isBlank = cs.reverse ++ [] :=
    dropWhile_isBlank (fun c hc => hafter c (List.mem_reverse.mp hc))
      (fun c hc => hcs c (List.mem_reverse.mp hc)) (mt List.reverse_eq_nil_iff.mp hne) []
  rw [List.append_nil] at hback
  rw [trimBlanks, List.append_assoc, dropWhile_isBlank hbefore hcs hne, List.reverse_append, hback,
    List.reverse_reverse]

end Text

namespace Numeral

/-! ## Digits -/

theorem digit?_eq (c : Char) :
    digit? c = if c.isDigit = true then some (c.toNat - '0'.toNat) else none := by
  have hdigit : ('0' ≤ c ∧ c ≤ '9') ↔ c.isDigit = true := by
    simp [Char.isDigit, Char.le_def]
  rw [digit?]
  exact if_congr hdigit rfl rfl

/-- More digits never make a number smaller. -/
theorem le_ofDigitChars (cs : List Char) (acc : Nat) : acc ≤ Nat.ofDigitChars 10 cs acc := by
  induction cs generalizing acc with
  | nil => exact Nat.le_refl acc
  | cons c rest ih =>
    rw [Nat.ofDigitChars_cons]
    have hrest := ih (10 * acc + (c.toNat - '0'.toNat))
    omega

/-- Every number on the way is below the last one, so the limit is that of the last one. -/
theorem readDigits_eq_ok {limit acc n : Nat} {excess : Fault} {cs : List Char} (hacc : acc ≤ limit) :
    readDigits limit excess acc cs = .ok n ↔
      (∀ c ∈ cs, c.isDigit = true) ∧ Nat.ofDigitChars 10 cs acc = n ∧ n ≤ limit := by
  induction cs generalizing acc with
  | nil =>
    rw [readDigits, Except.ok.injEq]
    constructor
    · rintro rfl
      exact ⟨List.forall_mem_nil _, rfl, hacc⟩
    · exact fun h => h.2.1
  | cons c rest ih =>
    rw [readDigits, digit?_eq]
    by_cases hdigit : c.isDigit = true
    · rw [if_pos hdigit, List.forall_mem_cons, and_iff_right hdigit, Nat.ofDigitChars_cons,
        Nat.mul_comm 10 acc]
      dsimp only
      split
      · rename_i hnext
        exact ih hnext
      · rename_i hnext
        simp only [reduceCtorEq, false_iff]
        exact fun h => hnext ((h.2.1 ▸ le_ofDigitChars rest _).trans h.2.2)
    · rw [if_neg hdigit]
      simp only [reduceCtorEq, false_iff]
      exact fun h => hdigit (h.1 c List.mem_cons_self)

/-! ## Numerals -/

/-- The digits of a number, which may start with zeros. -/
structure Spells (digits : List Char) (n : Nat) : Prop where
  ne_nil : digits ≠ []
  isDigit : ∀ c ∈ digits, c.isDigit = true
  value : Nat.ofDigitChars 10 digits 0 = n

/-- The digits of a number, which a plus sign may precede. -/
def Unsigned (cs : List Char) (n : Nat) : Prop :=
  ∃ digits, (cs = digits ∨ cs = '+' :: digits) ∧ Spells digits n

namespace Unsigned

variable {cs : List Char} {n : Nat}

theorem ne_nil (h : Unsigned cs n) : cs ≠ [] := by
  obtain ⟨digits, rfl | rfl, hdigits⟩ := h
  · exact hdigits.ne_nil
  · exact List.cons_ne_nil _ _

theorem eq_plus_or_isDigit (h : Unsigned cs n) {c : Char} (hc : c ∈ cs) :
    c = '+' ∨ c.isDigit = true := by
  obtain ⟨digits, rfl | rfl, hdigits⟩ := h
  · exact .inr (hdigits.isDigit c hc)
  · exact (List.mem_cons.mp hc).imp_right (hdigits.isDigit c)

/-- A numeral has no blanks in it. -/
theorem isBlank_eq_false (h : Unsigned cs n) : ∀ c ∈ cs, Text.isBlank c = false := by
  intro c hc
  rcases h.eq_plus_or_isDigit hc with rfl | hdigit
  · decide
  · have hnone : ∀ k < 58, 48 ≤ k →
        Text.blankSpans.any (fun span => span.1 ≤ k && k ≤ span.2) = false := by decide
    simp only [Char.isDigit, Bool.and_eq_true, decide_eq_true_eq, ge_iff_le,
      UInt32.le_iff_toNat_le] at hdigit
    exact hnone c.toNat (Nat.lt_succ_of_le hdigit.2) hdigit.1

end Unsigned

theorem spells_toDigits (n : Nat) : Spells (Nat.toDigits 10 n) n where
  ne_nil := Nat.toDigits_ne_nil
  isDigit _ hc := Nat.isDigit_of_mem_toDigits (by decide) (by decide) hc
  value := Nat.ofDigitChars_ten_toDigits

theorem Spells.readDigits_eq {digits : List Char} {n limit : Nat} (h : Spells digits n)
    (hn : n ≤ limit) (excess : Fault) : readDigits limit excess 0 digits = .ok n :=
  (readDigits_eq_ok (Nat.zero_le limit)).mpr ⟨h.isDigit, h.value, hn⟩

theorem spells_of_readDigits {digits : List Char} {n limit : Nat} {excess : Fault}
    (h : readDigits limit excess 0 digits = .ok n) (ne_nil : digits ≠ []) :
    Spells digits n ∧ n ≤ limit := by
  obtain ⟨hdigits, hvalue, hle⟩ := (readDigits_eq_ok (Nat.zero_le limit)).mp h
  exact ⟨⟨ne_nil, hdigits, hvalue⟩, hle⟩

theorem map_ofNat_eq_ok {r : Except Fault Nat} {m : Int} :
    (Int.ofNat <$> r) = .ok m ↔ ∃ n, r = .ok n ∧ m = Int.ofNat n := by
  cases r with
  | error fault => exact iff_of_false nofun nofun
  | ok n =>
    constructor
    · exact fun h => ⟨n, rfl, (Except.ok.inj h).symm⟩
    · rintro ⟨_, hn, rfl⟩
      rw [← Except.ok.inj hn]
      rfl

theorem read_plus (k : IntKind) {digits : List Char} (h : digits ≠ []) :
    read k ('+' :: digits) = Int.ofNat <$> readDigits k.greatest .tooLarge 0 digits := by
  obtain ⟨c, rest, rfl⟩ := List.exists_cons_of_ne_nil h
  rfl

theorem read_digit (k : IntKind) {c : Char} (h : c.isDigit = true) (rest : List Char) :
    read k (c :: rest) = Int.ofNat <$> readDigits k.greatest .tooLarge 0 (c :: rest) := by
  have hplus : c ≠ '+' := by
    rintro rfl
    exact absurd h (by decide)
  have hminus : c ≠ '-' := by
    rintro rfl
    exact absurd h (by decide)
  unfold read
  split <;> simp_all

/-- A kind without negative numbers has the numerals without a minus sign. -/
theorem read_eq_ok {k : IntKind} (unsigned : k.isSigned = false) {cs : List Char} {m : Int} :
    read k cs = .ok m ↔ ∃ n, Unsigned cs n ∧ n ≤ k.greatest ∧ m = Int.ofNat n := by
  constructor
  · intro h
    unfold read at h
    split at h
    · exact nomatch h
    · exact nomatch h
    · exact nomatch h
    · rename_i rest hrest
      obtain ⟨n, hread, rfl⟩ := map_ofNat_eq_ok.mp h
      obtain ⟨hdigits, hle⟩ := spells_of_readDigits hread hrest
      exact ⟨n, ⟨rest, .inr rfl, hdigits⟩, hle, rfl⟩
    · rw [unsigned] at h
      exact nomatch h
    · rename_i hnil _ _ _ _
      obtain ⟨n, hread, rfl⟩ := map_ofNat_eq_ok.mp h
      obtain ⟨hdigits, hle⟩ := spells_of_readDigits hread hnil
      exact ⟨n, ⟨cs, .inl rfl, hdigits⟩, hle, rfl⟩
  · rintro ⟨n, ⟨digits, hcs, hdigits⟩, hle, rfl⟩
    have hread : read k cs = Int.ofNat <$> readDigits k.greatest .tooLarge 0 digits := by
      rcases hcs with rfl | rfl
      · obtain ⟨c, rest, rfl⟩ := List.exists_cons_of_ne_nil hdigits.ne_nil
        exact read_digit k (hdigits.isDigit c List.mem_cons_self) rest
      · exact read_plus k hdigits.ne_nil
    rw [hread, hdigits.readDigits_eq hle]
    rfl

end Numeral

end Dataflow
