import Dataflow.Proofs.Frequency.LowestTerms
import Dataflow.Proofs.Text.Numerals

/-!
# Texts of frequencies

A frequency is written as a numeral or as two numerals with a slash between them, and each of them
may stand among blanks, have a plus sign and start with zeros. Such a text stands for a fraction, and
is read as the frequency that this fraction is. All other texts are refused, and the text of a
frequency is read as the frequency itself.
-/

namespace Dataflow.Frequency

/-! ## The texts of fractions -/

/-- One side of a fraction: the digits of a word, behind a plus sign or not, among blanks. -/
def Side (cs : List Char) (n : UInt32) : Prop :=
  ∃ before numeral after, cs = before ++ numeral ++ after ∧
    (∀ c ∈ before ++ after, Text.isBlank c = true) ∧ Numeral.Unsigned numeral n.toNat

/-- The texts of fractions. A side alone is over one. -/
inductive Fraction : List Char → UInt32 → UInt32 → Prop where
  | whole {cs : List Char} {n : UInt32} (side : Side cs n) : Fraction cs n 1
  | parted {ns ds : List Char} {n d : UInt32} (num : Side ns n) (den : Side ds d) :
      Fraction (ns ++ '/' :: ds) n d

/-- Whether a fraction is a whole number or the reciprocal of one: it has a denominator, and is zero
or one of its sides divides the other. -/
def Simple (num den : UInt32) : Prop :=
  den ≠ 0 ∧ (num = 0 ∨ num.toNat ∣ den.toNat ∨ den.toNat ∣ num.toNat)

/-! ## Sides -/

theorem readPart?_eq_some {cs : List Char} {n : UInt32} : readPart? cs = some n ↔ Side cs n := by
  constructor
  · intro h
    rw [readPart?] at h
    split at h
    · rename_i m hread
      obtain ⟨value, hnumeral, hle, rfl⟩ := (Numeral.read_eq_ok rfl).mp hread
      have hvalue : n.toNat = value := by
        rw [← Option.some.inj h]
        exact UInt32.toNat_ofNat_of_lt' (Nat.lt_succ_of_le hle)
      obtain ⟨before, after, hcs, hbefore, hafter⟩ := Text.trimBlanks_split cs
      refine ⟨before, Text.trimBlanks cs, after, hcs, fun c hc => ?_, hvalue ▸ hnumeral⟩
      exact (List.mem_append.mp hc).elim (hbefore c) (hafter c)
    · exact nomatch h
  · rintro ⟨before, numeral, after, rfl, hblank, hnumeral⟩
    have hbefore : ∀ c ∈ before, Text.isBlank c = true :=
      fun c hc => hblank c (List.mem_append_left after hc)
    have hafter : ∀ c ∈ after, Text.isBlank c = true :=
      fun c hc => hblank c (List.mem_append_right before hc)
    have hread : Numeral.read .u32 numeral = .ok (Int.ofNat n.toNat) :=
      (Numeral.read_eq_ok rfl).mpr ⟨_, hnumeral, Nat.le_of_lt_succ n.toNat_lt, rfl⟩
    rw [readPart?, Text.trimBlanks_eq hbefore hnumeral.isBlank_eq_false hnumeral.ne_nil hafter, hread]
    exact congrArg some UInt32.ofNat_toNat

/-- No slash stands in a side. -/
theorem Side.ne_slash {cs : List Char} {n : UInt32} (h : Side cs n) :
    ∀ c ∈ cs, (c != '/') = true := by
  obtain ⟨before, numeral, after, rfl, hblank, hnumeral⟩ := h
  intro c hc
  rw [bne_iff_ne]
  rintro rfl
  rw [List.append_assoc, List.mem_append, List.mem_append, or_left_comm, ← List.mem_append] at hc
  rcases hc with hc | hc
  · exact absurd (hnumeral.eq_plus_or_isDigit hc) (by decide)
  · exact absurd (hblank '/' hc) (by decide)

/-! ## Reading -/

/-- The two sides of a text that the first slash parts. -/
def sides? (cs : List Char) : Option (UInt32 × UInt32) := do
  let n ← readPart? (cs.takeWhile (· != '/'))
  let d ← readPart? (match cs.dropWhile (· != '/') with
    | [] => ['1']
    | _ :: rest => rest)
  return (n, d)

theorem parse_eq (s : String) :
    parse s = (sides? s.toList).elim (.error (.text s)) fun sides => ofRatio sides.1 sides.2 := by
  rw [parse, sides?]
  cases readPart? (s.toList.takeWhile (· != '/')) with
  | none => rfl
  | some n =>
    cases readPart? (match s.toList.dropWhile (· != '/') with
      | [] => ['1']
      | _ :: rest => rest) <;> rfl

theorem sides?_eq_some {cs : List Char} {n d : UInt32} :
    sides? cs = some (n, d) ↔ Fraction cs n d := by
  constructor
  · intro h
    obtain ⟨num, hnum, h⟩ := Option.bind_eq_some_iff.mp h
    obtain ⟨den, hden, h⟩ := Option.bind_eq_some_iff.mp h
    obtain ⟨rfl, rfl⟩ := Prod.mk.inj (Option.some.inj h)
    have hcs := List.takeWhile_append_dropWhile (p := (· != '/')) (l := cs)
    cases hrest : cs.dropWhile (· != '/') with
    | nil =>
      rw [hrest] at hcs hden
      rw [List.append_nil] at hcs
      have hone : readPart? ['1'] = some 1 := rfl
      obtain rfl := Option.some.inj (hone.symm.trans hden)
      rw [hcs] at hnum
      exact .whole (readPart?_eq_some.mp hnum)
    | cons c rest =>
      have hc : c = '/' := by
        have hhead := List.head_dropWhile_not (· != '/') (by rw [hrest]; exact List.cons_ne_nil c rest)
        simpa only [hrest, List.head_cons, bne_eq_false_iff_eq] using hhead
      rw [hrest] at hcs hden
      rw [← hcs, hc]
      exact .parted (readPart?_eq_some.mp hnum) (readPart?_eq_some.mp hden)
  · intro h
    cases h with
    | whole side =>
      rw [sides?, List.takeWhile_eq_self_iff.mpr side.ne_slash,
        List.dropWhile_eq_nil_iff.mpr side.ne_slash, readPart?_eq_some.mpr side]
      rfl
    | parted num den =>
      rw [sides?, List.takeWhile_append_of_pos num.ne_slash, List.dropWhile_append_of_pos num.ne_slash,
        List.takeWhile_cons_of_neg (by decide), List.dropWhile_cons_of_neg (by decide),
        List.append_nil, readPart?_eq_some.mpr num]
      dsimp only
      rw [readPart?_eq_some.mpr den]
      rfl

theorem parse_of_fraction {s : String} {n d : UInt32} (h : Fraction s.toList n d) :
    parse s = ofRatio n d := by
  rw [parse_eq, sides?_eq_some.mpr h]
  rfl

theorem parse_of_no_fraction {s : String} (h : ∀ n d, ¬ Fraction s.toList n d) :
    parse s = .error (.text s) := by
  rw [parse_eq]
  cases hsides : sides? s.toList with
  | none => rfl
  | some sides => exact absurd (sides?_eq_some.mp hsides) (h sides.1 sides.2)

/-- A text stands for one fraction only. -/
theorem Fraction.unique {cs : List Char} {n d n' d' : UInt32} (h : Fraction cs n d)
    (h' : Fraction cs n' d') : n = n' ∧ d = d' :=
  Prod.mk.inj (Option.some.inj ((sides?_eq_some.mpr h).symm.trans (sides?_eq_some.mpr h')))

theorem count_slash_side {cs : List Char} {n : UInt32} (h : Side cs n) : cs.count '/' = 0 :=
  List.count_eq_zero.mpr fun hc => absurd (h.ne_slash '/' hc) (by decide)

/-- A fraction has one slash at most. -/
theorem Fraction.count_slash_le {cs : List Char} {n d : UInt32} (h : Fraction cs n d) :
    cs.count '/' ≤ 1 := by
  cases h with
  | whole side => rw [count_slash_side side]; exact Nat.zero_le 1
  | parted num den =>
    rw [List.count_append, List.count_cons_self, count_slash_side num, count_slash_side den]

/-! ## Writing -/

theorem side_text (n : UInt32) : Side (toString n).toList n := by
  refine ⟨[], Nat.toDigits 10 n.toNat, [], ?_, nofun, _, .inl rfl, Numeral.spells_toDigits _⟩
  rw [List.nil_append, List.append_nil]
  change n.toNat.repr.toList = _
  rw [Nat.repr_eq_ofList_toDigits, String.toList_ofList]

theorem fraction_text (f : Frequency) : Fraction f.text.toList f.num f.den := by
  rw [text]
  split
  · rename_i hden
    rw [hden]
    exact .whole (side_text f.num)
  · rw [String.toList_append, String.toList_append, List.append_assoc]
    exact .parted (side_text f.num) (side_text f.den)

/-- The ways in which frequencies are made. -/
inductive Made : Frequency → Prop where
  | ofRatio {num den : UInt32} {f : Frequency} (h : ofRatio num den = .ok f) : Made f
  | integral (n : UInt32) : Made (integral n)
  | reciprocal {n : UInt32} {f : Frequency} (h : reciprocal n = .ok f) : Made f

theorem Made.denotes {f : Frequency} (h : f.Made) : ∃ num den, f.Denotes num den := by
  cases h with
  | ofRatio h => exact ⟨_, _, denotes_of_ofRatio h⟩
  | integral n => exact ⟨n, 1, denotes_integral n⟩
  | reciprocal h => exact ⟨_, _, denotes_of_ofRatio h⟩

theorem parse_text {f : Frequency} (h : f.Made) : parse f.text = .ok f := by
  obtain ⟨num, den, hdenotes⟩ := h.denotes
  rw [parse_of_fraction f.fraction_text, hdenotes.ofRatio_self]

theorem exists_ofRatio_iff {num den : UInt32} :
    (∃ f, ofRatio num den = .ok f) ↔ Simple num den := by
  cases h : ofRatio num den with
  | error fault =>
    obtain ⟨-, hbad⟩ := ofRatio_eq_error_iff.mp h
    refine iff_of_false nofun fun simple => ?_
    rcases hbad with hden | ⟨hnum, hleft, hright⟩
    · exact simple.1 hden
    · exact simple.2.elim hnum (·.elim hleft hright)
  | ok f =>
    refine iff_of_true ⟨f, rfl⟩ ?_
    -- What is not simple would be refused.
    have hgood : ¬ (den = 0 ∨ num ≠ 0 ∧ ¬ num.toNat ∣ den.toNat ∧ ¬ den.toNat ∣ num.toNat) :=
      fun hbad => nomatch h.symm.trans (ofRatio_eq_error_iff.mpr ⟨rfl, hbad⟩)
    unfold Simple
    tauto

theorem exists_parse_iff {s : String} :
    (∃ f, parse s = .ok f) ↔ ∃ n d, Fraction s.toList n d ∧ Simple n d := by
  constructor
  · rintro ⟨f, hf⟩
    by_cases hread : ∃ n d, Fraction s.toList n d
    · obtain ⟨n, d, hfraction⟩ := hread
      rw [parse_of_fraction hfraction] at hf
      exact ⟨n, d, hfraction, exists_ofRatio_iff.mp ⟨f, hf⟩⟩
    · rw [parse_of_no_fraction fun n d h => hread ⟨n, d, h⟩] at hf
      exact nomatch hf
  · rintro ⟨n, d, hfraction, hsimple⟩
    rw [parse_of_fraction hfraction]
    exact exists_ofRatio_iff.mpr hsimple

/-- What is read as a frequency. The text of a frequency, however it was made, is read as the frequency
itself. A text is read as a frequency just if it stands for a fraction that is a whole number or the
reciprocal of one. Such a text stands for one fraction only, and what is read is that fraction. All
other texts are refused as they are, among them those with a second slash. -/
theorem parse_fractions :
    (∀ f : Frequency, f.Made → parse f.text = .ok f) ∧
      ∀ s : String,
        ((∃ f, parse s = .ok f) ↔ ∃ n d, Fraction s.toList n d ∧ Simple n d) ∧
          (∀ n d, Fraction s.toList n d → parse s = ofRatio n d ∧
            ∀ n' d', Fraction s.toList n' d' → n = n' ∧ d = d') ∧
          ((∀ n d, ¬ Fraction s.toList n d) → parse s = .error (.text s)) ∧
          (1 < s.toList.count '/' → parse s = .error (.text s)) := by
  refine ⟨fun f => parse_text, fun s => ⟨exists_parse_iff,
    fun n d h => ⟨parse_of_fraction h, fun n' d' => h.unique⟩, parse_of_no_fraction,
    fun hcount => parse_of_no_fraction fun n d h => ?_⟩⟩
  exact Nat.not_lt_of_le h.count_slash_le hcount

/-- Seven over fourteen, among blanks, with a plus sign and zeros in front. -/
def padded : String := "\u3000+07 /\t0014"

/-- A datum every second step. -/
def half : Frequency := ⟨1, 2, .inl rfl⟩

/-- The padded text is read as one half, which is written and read back as such. -/
theorem parse_fractions_padded :
    Fraction padded.toList 7 14 ∧ Simple 7 14 ∧ parse padded = .ok half ∧
      half.text = "1/2" ∧ parse half.text = .ok half := by
  have hnum : Side ['\u3000', '+', '0', '7', ' '] 7 :=
    ⟨['\u3000'], ['+', '0', '7'], [' '], rfl, List.all_eq_true.mp (by decide), ['0', '7'],
      .inr rfl, by decide, List.all_eq_true.mp (by decide), rfl⟩
  have hden : Side ['\t', '0', '0', '1', '4'] 14 :=
    ⟨['\t'], ['0', '0', '1', '4'], [], rfl, List.all_eq_true.mp (by decide), _,
      .inl rfl, by decide, List.all_eq_true.mp (by decide), rfl⟩
  have hpadded : Fraction padded.toList 7 14 := .parted hnum hden
  have hsimple : Simple 7 14 := ⟨by decide, .inr (.inl (by decide))⟩
  obtain ⟨htexts, hreading⟩ := parse_fractions
  obtain ⟨hread, hfraction, -⟩ := hreading padded
  obtain ⟨f, hf⟩ := hread.mpr ⟨7, 14, hpadded, hsimple⟩
  have hratio : ofRatio 7 14 = .ok f := (hfraction 7 14 hpadded).1.symm.trans hf
  have hhalf : half.Denotes 7 14 := ⟨by decide, rfl, by decide⟩
  obtain rfl : f = half := (denotes_of_ofRatio hratio).eq_of_same hhalf rfl
  exact ⟨hpadded, hsimple, hf, rfl, htexts half (.ofRatio hratio)⟩

end Dataflow.Frequency
