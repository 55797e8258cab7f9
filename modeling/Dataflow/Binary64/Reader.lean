import Dataflow.Binary64.Basic
import Dataflow.Text.Numeral

/-!
# Reading floating-point numbers

A number is an optional sign, then a name for infinity or for what is no number in any case of
letters, or decimal digits with an optional point among them and an optional exponent behind them.
The result is the number nearest to the decimal.
-/

namespace Dataflow.Binary64

/-- The number nearest to `digits · 10 ^ exponent`. Exponents that decide the result by themselves
are cut off before any power is computed. -/
def ofDecimal (negative : Bool) (digits : Nat) (exponent : Int) : Binary64 :=
  let reach := Int.ofNat (Nat.toDigits 10 digits).length + exponent
  if digits = 0 ∨ reach < -330 then ofMagnitude negative 0
  else if 310 < reach then infinity negative
  else if 0 ≤ exponent then ofRatio negative (digits * Nat.pow 10 exponent.toNat) 1
  else ofRatio negative digits (Nat.pow 10 (-exponent).toNat)

/-- Why a text is not a number. -/
inductive Fault where
  | empty
  | malformed
  deriving DecidableEq

/-- The wording of a fault. -/
def Fault.message : Fault → String
  | .empty => "cannot parse float from empty string"
  | .malformed => "invalid float literal"

/-- Split off the digits at the front. -/
def spanDigits (cs : List Char) : List Char × List Char :=
  cs.span fun c => (Numeral.digit? c).isSome

/-- The number that a list of digits denotes. -/
def digitsValue (cs : List Char) : Nat :=
  cs.foldl (fun acc c => acc * 10 + (Numeral.digit? c).getD 0) 0

/-- Split off an optional sign: whether it was a minus, and what follows. -/
def splitSign : List Char → Bool × List Char
  | '-' :: rest => (true, rest)
  | '+' :: rest => (false, rest)
  | cs => (false, cs)

/-- Read an exponent part, or its absence. -/
def readExponent? : List Char → Option Int
  | [] => some 0
  | c :: rest =>
    if c = 'e' ∨ c = 'E' then
      let (negative, digits) := splitSign rest
      match spanDigits digits with
      | ([], _) => none
      | (ds, []) => some (if negative then -Int.ofNat (digitsValue ds) else digitsValue ds)
      | (_, _ :: _) => none
    else none

/-- Read a decimal without its sign. -/
def readDecimal? (negative : Bool) (cs : List Char) : Option Binary64 :=
  let (whole, afterWhole) := spanDigits cs
  let (fraction, tail) :=
    match afterWhole with
    | '.' :: rest => spanDigits rest
    | rest => ([], rest)
  if whole.isEmpty && fraction.isEmpty then none
  else (readExponent? tail).map fun e =>
    ofDecimal negative (digitsValue (whole ++ fraction)) (e - fraction.length)

/-- Read a number. -/
def read (cs : List Char) : Except Fault Binary64 :=
  if cs.isEmpty then .error .empty
  else
    let (negative, body) := splitSign cs
    let name := body.map Char.toLower
    if name = "inf".toList ∨ name = "infinity".toList then .ok (infinity negative)
    else if name = "nan".toList then .ok (nan negative)
    else match readDecimal? negative body with
      | some x => .ok x
      | none => .error .malformed

end Dataflow.Binary64
