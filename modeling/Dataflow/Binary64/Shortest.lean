import Dataflow.Binary64.Basic

/-!
# The shortest decimal text of a number

A finite number is written with the fewest digits that read back as the same number, and among
those with the digits nearest to it, the larger of two that are equally near. The text is positional
throughout: no exponent, no trailing zeros after the point, and no point without digits behind it.
-/

namespace Dataflow.Binary64

/-- A decimal `digits · 10 ^ exponent`. -/
structure Decimal where
  digits : Nat
  exponent : Int
  deriving DecidableEq

/-- How many quarters of a unit make one. Bounds of rounding intervals are whole in quarters. -/
def quartersOfOne : Nat := Nat.pow 2 1076

/-- The reals that round to a positive finite number, in quarters of a unit. At a power of two the
numbers below lie closer together. The bounds themselves belong if the significand is even. -/
structure Interval where
  least : Nat
  centre : Nat
  greatest : Nat
  closed : Bool

/-- The interval of a positive finite number. -/
def interval (x : Binary64) : Interval where
  least := 4 * x.units - if x.fraction = 0 ∧ 1 < x.exponent then x.gap else 2 * x.gap
  centre := 4 * x.units
  greatest := 4 * x.units + 2 * x.gap
  closed := x.fraction % 2 = 0

/-- Whether the real `point / scale` lies in the interval. -/
def Interval.contains (i : Interval) (scale point : Nat) : Bool :=
  if i.closed then i.least * scale ≤ point ∧ point ≤ i.greatest * scale
  else i.least * scale < point ∧ point < i.greatest * scale

/-- The exponent of the leading decimal digit of `num / den`, which is positive. -/
def leadingExponent (num den : Nat) : Int :=
  if den ≤ num then Int.ofNat ((Nat.toDigits 10 (num / den)).length - 1)
  else -Int.ofNat (Nat.toDigits 10 ((den - 1) / num)).length

/-- The decimal with exponent `e` that lies in the interval, the nearer one of two. -/
def Interval.decimal? (i : Interval) (e : Int) : Option Decimal :=
  let scale := Nat.pow 10 (-e).toNat
  let step := Nat.pow 10 e.toNat * quartersOfOne
  let below := i.centre * scale / step
  let above := below + 1
  match i.contains scale (below * step), i.contains scale (above * step) with
  | true, true =>
    let nearer :=
      if 2 * (i.centre * scale) < (below + above) * step then below else above
    some ⟨nearer, e⟩
  | true, false => some ⟨below, e⟩
  | false, true => some ⟨above, e⟩
  | false, false => none

/-- The shortest decimal in the interval: exponents are tried from the coarsest grid on. Seventeen
digits always tell two numbers apart. -/
def shortest (x : Binary64) : Decimal :=
  let i := x.interval
  let top := leadingExponent i.centre quartersOfOne
  ((List.range 17).findSome? fun n => i.decimal? (top - Int.ofNat n)).getD ⟨0, 0⟩

/-- A decimal in positional notation. -/
def Decimal.layout (d : Decimal) : List Char :=
  let digits := Nat.toDigits 10 d.digits
  if 0 ≤ d.exponent then digits ++ List.replicate d.exponent.toNat '0'
  else
    let places := (-d.exponent).toNat
    let padded := List.replicate (places + 1 - digits.length) '0' ++ digits
    let whole := padded.take (padded.length - places)
    let fraction := (padded.drop (padded.length - places)).reverse.dropWhile (· == '0')
    if fraction.isEmpty then whole else whole ++ '.' :: fraction.reverse

/-- The text of a number: what is no number has one text whatever its sign. -/
def text (x : Binary64) : String :=
  if x.isNaN then "NaN"
  else
    let size := if x.isInfinite then "inf".toList
      else if x.magnitude = 0 then ['0']
      else x.shortest.layout
    String.ofList (if x.isNegative then '-' :: size else size)

end Dataflow.Binary64
