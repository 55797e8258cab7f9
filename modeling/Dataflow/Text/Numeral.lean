/-!
# Whole numbers in a fixed range

A numeral is an optional sign and one or more decimal digits. It is read from left to right, and the
first character at which reading cannot go on decides the fault: a character that is no digit, or a
digit that takes the number out of its range. The minus sign belongs to the numerals of signed
kinds alone.
-/

namespace Dataflow

/-- The kinds of whole number that a text can be read as. -/
inductive IntKind where
  | i8 | i16 | i32 | i64 | u8 | u16 | u32 | u64
  deriving DecidableEq

namespace IntKind

/-- Whether a kind has negative numbers. -/
def isSigned : IntKind → Bool
  | i8 | i16 | i32 | i64 => true
  | u8 | u16 | u32 | u64 => false

/-- The number of bits of a kind. -/
def bits : IntKind → Nat
  | i8 | u8 => 8
  | i16 | u16 => 16
  | i32 | u32 => 32
  | i64 | u64 => 64

/-- How far a kind reaches above zero. -/
def greatest (k : IntKind) : Nat :=
  if k.isSigned then Nat.pow 2 (k.bits - 1) - 1 else Nat.pow 2 k.bits - 1

/-- How far a kind reaches below zero. -/
def depth (k : IntKind) : Nat :=
  if k.isSigned then Nat.pow 2 (k.bits - 1) else 0

end IntKind

namespace Numeral

/-- Why a text is not a numeral of some kind. -/
inductive Fault where
  | empty
  | badDigit
  | tooLarge
  | tooSmall
  deriving DecidableEq

/-- The wording of a fault. -/
def Fault.message : Fault → String
  | .empty => "cannot parse integer from empty string"
  | .badDigit => "invalid digit found in string"
  | .tooLarge => "number too large to fit in target type"
  | .tooSmall => "number too small to fit in target type"

/-- The value of a decimal digit. -/
def digit? (c : Char) : Option Nat :=
  if '0' ≤ c ∧ c ≤ '9' then some (c.toNat - '0'.toNat) else none

/-- Read digits on top of the number `acc` read so far. A number above `limit` is the fault
`excess`. -/
def readDigits (limit : Nat) (excess : Fault) (acc : Nat) : List Char → Except Fault Nat
  | [] => .ok acc
  | c :: rest =>
    match digit? c with
    | none => .error .badDigit
    | some d =>
      let next := acc * 10 + d
      if next ≤ limit then readDigits limit excess next rest else .error excess

/-- Read a numeral of kind `k`. A sign with nothing behind it is a bad digit. -/
def read (k : IntKind) : List Char → Except Fault Int
  | [] => .error .empty
  | ['+'] | ['-'] => .error .badDigit
  | '+' :: rest => Int.ofNat <$> readDigits k.greatest .tooLarge 0 rest
  | '-' :: rest =>
    if k.isSigned then (fun n => -Int.ofNat n) <$> readDigits k.depth .tooSmall 0 rest
    else .error .badDigit
  | cs => Int.ofNat <$> readDigits k.greatest .tooLarge 0 cs

end Numeral

end Dataflow
