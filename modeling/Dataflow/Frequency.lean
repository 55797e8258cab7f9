import Dataflow.Text.Blank
import Dataflow.Text.Numeral

/-!
# Frequencies

The frequency of a port says how many datums it moves in a step, as a fraction in lowest terms: a
whole number, the reciprocal of one, or zero for a port that promises nothing.
-/

namespace Dataflow

/-- A whole number or the reciprocal of one. -/
structure Frequency where
  num : UInt32
  den : UInt32
  isSimple : num = 1 ∨ den = 1
  deriving DecidableEq

namespace Frequency

/-- `n` datums a step. -/
def integral (n : UInt32) : Frequency := ⟨n, 1, .inr rfl⟩

/-- One datum a step. -/
def one : Frequency := integral 1

/-- No promise. -/
def unconstrained : Frequency := integral 0

instance : Inhabited Frequency := ⟨one⟩

/-- Why there is no such frequency: a fraction of another form, or a text of another form. -/
inductive Fault where
  | fraction (num den : UInt32)
  | text (source : String)
  deriving DecidableEq

/-- The frequency that a fault rejects, as it was given. -/
def Fault.rejected : Fault → String
  | .fraction num den => toString num ++ "/" ++ toString den
  | .text source => source

/-- The greatest common divisor, by repeated remainders. -/
def gcd (a b : UInt32) : UInt32 :=
  if b = 0 then a else gcd b (a % b)
termination_by b.toNat
decreasing_by
  rename_i h
  rw [UInt32.toNat_mod]
  exact Nat.mod_lt _ (Nat.pos_of_ne_zero fun h0 => h (UInt32.toNat_inj.mp h0))

/-- Repeated remainders give the greatest common divisor of the natural numbers. -/
theorem toNat_gcd (a b : UInt32) : (gcd a b).toNat = Nat.gcd a.toNat b.toNat := by
  induction a, b using gcd.induct with
  | case1 a => rw [gcd]; simp
  | case2 a b hb ih => rw [gcd, if_neg hb, ih, UInt32.toNat_mod, Nat.gcd_comm, ← Nat.gcd_rec,
      Nat.gcd_comm]

/-- The fraction `num / den` in lowest terms. -/
def ofRatio (num den : UInt32) : Except Fault Frequency :=
  if den = 0 then .error (.fraction num den)
  else if num = 0 then .ok unconstrained
  else
    let divisor := gcd num den
    if h : num / divisor = 1 ∨ den / divisor = 1 then .ok ⟨num / divisor, den / divisor, h⟩
    else .error (.fraction num den)

/-- One datum every `n` steps. -/
def reciprocal (n : UInt32) : Except Fault Frequency := ofRatio 1 n

/-- Whether the port promises nothing. -/
def isUnconstrained (f : Frequency) : Bool := f.num == 0

/-- How many datums one step takes from an input: the frequency itself if it is a positive whole
number, and a single datum otherwise. -/
def tokensPerStep (f : Frequency) : Nat :=
  if f.den = 1 ∧ 0 < f.num then f.num.toNat else 1

/-- A step takes at least one datum. -/
theorem tokensPerStep_pos (f : Frequency) : 0 < f.tokensPerStep := by
  unfold tokensPerStep
  split
  · rename_i h
    simpa [UInt32.lt_iff_toNat_lt] using h.2
  · decide

/-- The text of a frequency: whole numbers have no denominator. -/
def text (f : Frequency) : String :=
  if f.den = 1 then toString f.num else toString f.num ++ "/" ++ toString f.den

/-- The diagnostic text of a frequency. -/
def debug (f : Frequency) : String := "Frequency(" ++ f.text ++ ")"

/-- One side of a fraction: a numeral among blanks. -/
def readPart? (cs : List Char) : Option UInt32 :=
  match Numeral.read .u32 (Text.trimBlanks cs) with
  | .ok n => some (.ofNat n.toNat)
  | .error _ => none

/-- Read a frequency: a numeral, or two that the first slash parts. -/
def parse (s : String) : Except Fault Frequency :=
  let cs := s.toList
  let num := cs.takeWhile (· != '/')
  let den := match cs.dropWhile (· != '/') with
    | [] => ['1']
    | _ :: rest => rest
  match readPart? num, readPart? den with
  | some n, some d => ofRatio n d
  | _, _ => .error (.text s)

end Frequency

end Dataflow
