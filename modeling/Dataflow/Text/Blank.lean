/-!
# Blank characters

The Unicode property *White_Space*, and the text that is left when blanks are cut off at both ends.
-/

namespace Dataflow.Text

/-- The code points with the property, as inclusive spans in ascending order. -/
def blankSpans : List (Nat × Nat) :=
  [(0x9, 0xd), (0x20, 0x20), (0x85, 0x85), (0xa0, 0xa0), (0x1680, 0x1680), (0x2000, 0x200a),
   (0x2028, 0x2029), (0x202f, 0x202f), (0x205f, 0x205f), (0x3000, 0x3000)]

/-- Whether a character is white space. -/
def isBlank (c : Char) : Bool :=
  blankSpans.any fun span => span.1 ≤ c.toNat && c.toNat ≤ span.2

/-- The characters between the first and the last one that is not blank. -/
def trimBlanks (cs : List Char) : List Char :=
  ((cs.dropWhile isBlank).reverse.dropWhile isBlank).reverse

end Dataflow.Text
