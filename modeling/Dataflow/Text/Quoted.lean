import Dataflow.Text.GraphemeExtend
import Dataflow.Text.Unprintable

/-!
# Quoted text

Diagnostic texts show a string between double quotes, so that every character of it can be told.
The quote, the backslash and the common controls have short escapes. A character that would hide
(it has no glyph, or it is drawn on its neighbour) is written by its code point in hexadecimal.
-/

namespace Dataflow.Text

/-- The lower-case hexadecimal digits of a number. -/
def hexDigits (n : Nat) : List Char := Nat.toDigits 16 n

/-- One character as it stands between the quotes. -/
def quotedChar (c : Char) : List Char :=
  match c with
  | '\x00' => ['\\', '0']
  | '\t' => ['\\', 't']
  | '\r' => ['\\', 'r']
  | '\n' => ['\\', 'n']
  | '\\' => ['\\', '\\']
  | '"' => ['\\', '"']
  | c =>
    if c.toNat < 0x7f ∧ ' ' ≤ c then [c]
    else if extendsGrapheme c || !isPrintable c then
      ['\\', 'u', '\x7b'] ++ hexDigits c.toNat ++ ['\x7d']
    else [c]

/-- A string between quotes. -/
def quoted (s : String) : String :=
  String.ofList ('"' :: s.toList.flatMap quotedChar ++ ['"'])

/-- The items of a list, set off by commas and closed in brackets. -/
def bracketed (items : List String) : String :=
  "[" ++ ", ".intercalate items ++ "]"

end Dataflow.Text
