/-!
# Binary floating-point numbers of 64 bits

A number is its bits: a sign, eleven bits of exponent and 52 of fraction. Every finite number is a
whole multiple of `2 ^ -1074`, the *unit*, so that its size is a natural number of units and all
that is done with it here is exact.
-/

namespace Dataflow

/-- A floating-point number, given by its bits. -/
structure Binary64 where
  bits : UInt64
  deriving DecidableEq

namespace Binary64

/-- The number of bits of the fraction. -/
def fractionBits : Nat := 52

/-- The number of fractions. As a bit it is the lowest one of the exponent field. -/
def fractionUnit : Nat := Nat.pow 2 fractionBits

/-- The exponent field that is kept for infinities and for what is no number. -/
def topExponent : Nat := 2047

/-- Whether the sign bit is set. -/
def isNegative (x : Binary64) : Bool := Nat.pow 2 63 ≤ x.bits.toNat

/-- The bits below the sign. -/
def magnitude (x : Binary64) : Nat := x.bits.toNat % Nat.pow 2 63

/-- The exponent field. -/
def exponent (x : Binary64) : Nat := x.magnitude / fractionUnit

/-- The fraction field. -/
def fraction (x : Binary64) : Nat := x.magnitude % fractionUnit

/-- The magnitude bits of infinity. -/
def infinityBits : Nat := topExponent * fractionUnit

/-- Whether the bits are no number. -/
def isNaN (x : Binary64) : Bool := infinityBits < x.magnitude

/-- Whether the number is one of the infinities. -/
def isInfinite (x : Binary64) : Bool := x.magnitude == infinityBits

/-- The significand of a finite number: with exponent field zero there is no hidden bit. -/
def significand (x : Binary64) : Nat :=
  if x.exponent = 0 then x.fraction else fractionUnit + x.fraction

/-- The distance from a finite number to the next larger size, in units. -/
def gap (x : Binary64) : Nat := Nat.pow 2 (x.exponent - 1)

/-- The size of a finite number, in units. -/
def units (x : Binary64) : Nat := x.significand * x.gap

/-- A number from its sign and its magnitude bits. -/
def ofMagnitude (negative : Bool) (magnitude : Nat) : Binary64 :=
  ⟨.ofNat ((if negative then Nat.pow 2 63 else 0) + magnitude)⟩

/-- Positive or negative infinity. -/
def infinity (negative : Bool) : Binary64 := ofMagnitude negative infinityBits

/-- The quiet value that is no number. -/
def nan (negative : Bool) : Binary64 := ofMagnitude negative (infinityBits + Nat.pow 2 51)

/-- A quotient rounded to the nearest whole number; a tie goes to the even one. -/
def roundDiv (num den : Nat) : Nat :=
  let quotient := num / den
  let rest := 2 * (num % den)
  if den < rest ∨ (rest = den ∧ quotient % 2 = 1) then quotient + 1 else quotient

/-- The number nearest to a fraction. What is too large becomes an infinity. -/
def ofRatio (negative : Bool) (num den : Nat) : Binary64 :=
  let scaled := num * Nat.pow 2 1074
  let shift := (scaled / den).log2 - fractionBits
  let magnitude := shift * fractionUnit + roundDiv scaled (den * Nat.pow 2 shift)
  ofMagnitude negative (min magnitude infinityBits)

end Binary64

end Dataflow
